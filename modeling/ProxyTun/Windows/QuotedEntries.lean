import ProxyTun.Core.Scanning
import ProxyTun.Library.Lines
import ProxyTun.Rules.ProcessLists

/-!
# Quoted entries of a process list

A list is cut at its separators before any quotes are looked at. An entry that needs its quotes,
because a separator stands inside them, is cut like the others.
-/
namespace ProxyTun.Windows

/-- An entry of a process list, with the blanks around it. -/
structure ProcessEntry where
  lead : CStr
  quoted : Bool
  text : CStr
  trail : CStr
  lead_blank : IsBlanks lead
  trail_blank : IsBlanks trail
  plain : quoted = false → text ≠ [] ∧ ',' ∉ text ∧ ';' ∉ text
  plain_head : quoted = false → ∀ c ∈ text.head?, c ≠ '"' ∧ isBlank c = false
  plain_last : quoted = false → ∀ c ∈ text.getLast?, isBlank c = false
  inner : quoted = true → '"' ∉ text

namespace ProcessEntry

def body (entry : ProcessEntry) : CStr :=
  if entry.quoted then '"' :: (entry.text ++ ['"']) else entry.text

/-- The entry as it stands in the list. -/
def written (entry : ProcessEntry) : CStr := entry.lead ++ (entry.body ++ entry.trail)

/-- A separator stands inside the quotes. -/
def Broken (entry : ProcessEntry) : Prop := ',' ∈ entry.text ∨ ';' ∈ entry.text

instance (entry : ProcessEntry) : Decidable entry.Broken := inferInstanceAs (Decidable (_ ∨ _))

end ProcessEntry

/-- What a quoted text is compared as between its opening quote and its first separator: the quote
alone if nothing but blanks is there. -/
def firstPiece (part : CStr) : CStr :=
  if part.rdropWhile isBlank = [] then ['"'] else part.rdropWhile isBlank

/-- What the parts behind the first separator are compared as. The last keeps its quote. -/
def laterPieces : List CStr → List CStr
  | [] => []
  | [last] => [last.dropWhile isBlank ++ ['"']]
  | part :: next :: parts =>
    (if part = [] then [] else [(part.dropWhile isBlank).rdropWhile isBlank]) ++
      laterPieces (next :: parts)

/-- The pieces that a quoted text with a separator inside falls into. -/
def quotedPieces (text : CStr) : List CStr :=
  let parts := text.splitOnP fun c => [',', ';'].contains c
  firstPiece (parts.headD []) :: laterPieces parts.tail

/-- A separator of the list. -/
def IsSeparator (c : Char) : Prop := c ∈ [',', ';']

instance (c : Char) : Decidable (IsSeparator c) := inferInstanceAs (Decidable (_ ∈ _))

/-- The list of an entry and those behind it, each behind a separator. -/
def listText (first : ProcessEntry) : List (Subtype IsSeparator × ProcessEntry) → CStr
  | [] => first.written
  | (separator, entry) :: rest => first.written ++ separator.val :: listText entry rest

/-- The entries of the list. -/
def listEntries (first : ProcessEntry) (rest : List (Subtype IsSeparator × ProcessEntry)) :
    List ProcessEntry :=
  first :: rest.map Prod.snd

/-- An entry that is not broken names the path, or else a piece of a broken entry names it if and
only if a broken entry does. -/
def QuotesHold (entries : List ProcessEntry) (path : CStr) : Prop :=
  (∃ entry ∈ entries, ¬ entry.Broken ∧ Names .windows entry.text path) ∨
    ((∃ entry ∈ entries, entry.Broken ∧
        ∃ piece ∈ quotedPieces entry.text, Names .windows piece path) ↔
      ∃ entry ∈ entries, entry.Broken ∧ Names .windows entry.text path)

theorem isBlanks_nil : IsBlanks [] := fun _ hc => absurd hc List.not_mem_nil

section
variable {text trail : CStr}

theorem skipWhitespace_append {lead : CStr} (hlead : IsBlanks lead) (hne : text ≠ [])
    (hhead : ∀ c ∈ text.head?, isBlank c = false) (behind : CStr) :
    skipWhitespace (lead ++ (text ++ behind)) = text ++ behind := by
  rw [skipWhitespace, List.dropWhile_append_of_pos hlead]
  obtain ⟨c, cs, rfl⟩ := List.exists_cons_of_ne_nil hne
  rw [List.cons_append, List.dropWhile_cons_of_neg]
  simp [hhead c rfl]

theorem cutBlanks_append {c : Char} (htrail : IsBlanks trail)
    (hlast : ∀ d ∈ (c :: text).getLast?, isBlank d = false) :
    c :: ((text ++ trail).reverse.dropWhile isBlank).reverse = c :: text := by
  congr 1
  rw [List.reverse_append,
    List.dropWhile_append_of_pos fun d hd => htrail d (List.mem_reverse.mp hd)]
  cases hreverse : text.reverse with
  | nil => rw [List.reverse_eq_nil_iff.mp hreverse]; rfl
  | cons d ds =>
    have htext : text = ds.reverse ++ [d] := by
      rw [← List.reverse_reverse text, hreverse, List.reverse_cons]
    have hd : isBlank d = false := by
      apply hlast
      rw [htext, ← List.cons_append, List.getLast?_concat]
      rfl
    rw [List.dropWhile_cons_of_neg (by simp [hd]), ← hreverse, List.reverse_reverse]

theorem trimToken_blanks {lead : CStr} (hlead : IsBlanks lead) (htrail : IsBlanks trail)
    (hne : text ≠ []) (hhead : ∀ c ∈ text.head?, isBlank c = false)
    (hlast : ∀ c ∈ text.getLast?, isBlank c = false) :
    trimToken (lead ++ (text ++ trail)) = trimToken text := by
  have hskip := skipWhitespace_append hlead hne hhead trail
  have hself : skipWhitespace text = text := by
    simpa using skipWhitespace_append isBlanks_nil hne hhead []
  unfold trimToken
  rw [hskip, hself]
  obtain ⟨c, cs, rfl⟩ := List.exists_cons_of_ne_nil hne
  have hcut := cutBlanks_append isBlanks_nil hlast
  rw [List.append_nil] at hcut
  simp only [List.cons_append, cutBlanks_append htrail hlast, hcut]

theorem trimToken_plain {c : Char} (hhead : c ≠ '"' ∧ isBlank c = false)
    (hlast : ∀ d ∈ (c :: text).getLast?, isBlank d = false) :
    trimToken (c :: text) = c :: text := by
  have hcut := cutBlanks_append isBlanks_nil hlast
  rw [List.append_nil] at hcut
  unfold trimToken
  rw [skipWhitespace, List.dropWhile_cons_of_neg (by simp [hhead.2])]
  simp only [hcut]
  split
  · next d ds heq => exact absurd (List.cons.inj heq).1 hhead.1
  · rfl

theorem trimToken_quoted (hinner : '"' ∉ text) : trimToken ('"' :: (text ++ ['"'])) = text := by
  have hcut := @cutBlanks_append (text ++ ['"']) [] '"' isBlanks_nil (by
    intro d hd
    rw [← List.cons_append, List.getLast?_concat] at hd
    rw [← Option.some.inj hd]
    decide)
  rw [List.append_nil] at hcut
  unfold trimToken
  rw [skipWhitespace, List.dropWhile_cons_of_neg (by decide)]
  simp only [hcut]
  have htake := takeWhile_ne_append hinner []
  cases text with
  | nil => rfl
  | cons c cs => exact htake

end

theorem isBlank_of_mem_separators {c : Char} (h : c ∈ [',', ';']) : isBlank c = false := by
  rcases List.mem_cons.mp h with rfl | h
  · decide
  · rw [List.mem_singleton.mp h]
    decide

section
variable {part : CStr}

theorem of_dropWhile_isBlank {c : Char} {cs : CStr} (h : part.dropWhile isBlank = c :: cs) :
    isBlank c = false ∧ c ∈ part := by
  have hne : part.dropWhile isBlank ≠ [] := by simp [h]
  have hhead := List.head_dropWhile_not isBlank hne
  have hmem : c ∈ part.dropWhile isBlank := by
    rw [h]
    exact List.mem_cons_self
  exact ⟨by simpa [h] using hhead, (List.dropWhile_sublist isBlank).subset hmem⟩

theorem cons_cut_eq_rdropWhile {c : Char} (hc : isBlank c = false) (part : CStr) :
    c :: (part.reverse.dropWhile isBlank).reverse = (c :: part).rdropWhile isBlank := by
  rw [List.rdropWhile, List.reverse_cons, List.dropWhile_append]
  split_ifs with hempty
  · rw [List.isEmpty_iff.mp hempty, List.dropWhile_cons_of_neg (by simp [hc])]
    rfl
  · simp

theorem trimToken_part (h : '"' ∉ part) :
    trimToken part = (part.dropWhile isBlank).rdropWhile isBlank := by
  unfold trimToken
  rw [skipWhitespace]
  cases hskip : part.dropWhile isBlank with
  | nil => rfl
  | cons c cs =>
    obtain ⟨hblank, hmem⟩ := of_dropWhile_isBlank hskip
    have hquote : c ≠ '"' := ne_of_mem_of_not_mem hmem h
    simp only [cons_cut_eq_rdropWhile hblank]
    split
    · next d ds heq =>
      have hhead := congrArg List.head? heq
      rw [← cons_cut_eq_rdropWhile hblank] at hhead
      exact absurd (Option.some.inj hhead) hquote
    · rfl

theorem trimToken_firstPart {lead : CStr} (hlead : IsBlanks lead) (h : '"' ∉ part) :
    trimToken (lead ++ '"' :: part) = firstPiece part := by
  have hskip : skipWhitespace (lead ++ '"' :: part) = '"' :: part := by
    rw [skipWhitespace, List.dropWhile_append_of_pos hlead,
      List.dropWhile_cons_of_neg (by decide)]
  have hends : (part.reverse.dropWhile isBlank).reverse = part.rdropWhile isBlank := rfl
  unfold trimToken firstPiece
  rw [hskip]
  simp only [hends]
  cases hcut : part.rdropWhile isBlank with
  | nil => rfl
  | cons c cs =>
    simp only [if_neg (List.cons_ne_nil c cs)]
    have hcore : '"' ∉ c :: cs := by
      rw [← hcut]
      exact fun hmem => h ((List.rdropWhile_prefix isBlank part).subset hmem)
    exact takeWhile_ne_eq_self hcore

theorem trimToken_lastPart {trail : CStr} (htrail : IsBlanks trail) (h : '"' ∉ part) :
    trimToken (part ++ '"' :: trail) = part.dropWhile isBlank ++ ['"'] := by
  have hsplit : part ++ '"' :: trail =
      part.takeWhile isBlank ++ ((part.dropWhile isBlank ++ ['"']) ++ trail) := by
    rw [List.append_assoc, ← List.append_assoc, List.takeWhile_append_dropWhile]
    rfl
  have hlead : IsBlanks (part.takeWhile isBlank) := fun c hc => List.mem_takeWhile_imp hc
  have hlast : ∀ c ∈ (part.dropWhile isBlank ++ ['"']).getLast?, isBlank c = false := by
    intro c hc
    rw [List.getLast?_concat] at hc
    rw [← Option.some.inj hc]
    decide
  cases hcore : part.dropWhile isBlank with
  | nil =>
    rw [hcore] at hsplit hlast
    rw [hsplit, trimToken_blanks hlead htrail (by simp) _ hlast]
    · rfl
    · intro c hc
      rw [← Option.some.inj hc]
      decide
  | cons c cs =>
    obtain ⟨hblank, hmem⟩ := of_dropWhile_isBlank hcore
    have hquote : c ≠ '"' := ne_of_mem_of_not_mem hmem h
    rw [hcore] at hsplit hlast
    rw [hsplit, trimToken_blanks hlead htrail (by simp) _ hlast]
    · exact trimToken_plain ⟨hquote, hblank⟩ hlast
    · intro d hd
      rw [← Option.some.inj hd]
      exact hblank

end

namespace ProcessEntry
variable {entry : ProcessEntry}

theorem body_ne_nil (entry : ProcessEntry) : entry.body ≠ [] := by
  unfold body
  split_ifs with hquoted
  · exact List.cons_ne_nil _ _
  · exact (entry.plain (by simpa using hquoted)).1

theorem trimToken_written (entry : ProcessEntry) : trimToken entry.written = entry.text := by
  unfold written body
  split_ifs with hquoted
  · rw [trimToken_blanks entry.lead_blank entry.trail_blank (List.cons_ne_nil _ _)]
    · exact trimToken_quoted (entry.inner hquoted)
    · intro c hc
      rw [← Option.some.inj hc]
      decide
    · intro c hc
      rw [← List.cons_append, List.getLast?_concat] at hc
      rw [← Option.some.inj hc]
      decide
  · have hplain : entry.quoted = false := by simpa using hquoted
    have hhead := entry.plain_head hplain
    have hlast := entry.plain_last hplain
    rw [trimToken_blanks entry.lead_blank entry.trail_blank (entry.plain hplain).1
      (fun c hc => (hhead c hc).2) hlast]
    obtain ⟨c, cs, htext⟩ := List.exists_cons_of_ne_nil (entry.plain hplain).1
    rw [htext] at hhead hlast ⊢
    exact trimToken_plain (hhead c rfl) hlast

theorem written_ne_nil (entry : ProcessEntry) : entry.written ≠ [] := by
  simp [written, entry.body_ne_nil]

theorem strtok_written (h : ¬ entry.Broken) :
    strtok [',', ';'] entry.written = [entry.written] := by
  apply strtok_eq_singleton entry.written_ne_nil
  obtain ⟨hcomma, hsemicolon⟩ := not_or.mp h
  have hbody (separator : Char) (hquote : separator ≠ '"') (htext : separator ∉ entry.text) :
      separator ∉ entry.body := by
    unfold body
    split_ifs
    · simp [hquote, htext]
    · exact htext
  have hwritten (separator : Char) (hblank : isBlank separator = false)
      (hquote : separator ≠ '"') (htext : separator ∉ entry.text) :
      separator ∉ entry.written := by
    simp [written, entry.lead_blank.not_mem hblank, entry.trail_blank.not_mem hblank,
      hbody separator hquote htext]
  have hno := hwritten ',' (by decide) (by decide) hcomma
  have hno' := hwritten ';' (by decide) (by decide) hsemicolon
  intro c hc hmem
  rcases List.mem_cons.mp hmem with rfl | hmem
  · exact hno hc
  · rw [List.mem_singleton.mp hmem] at hc
    exact hno' hc

theorem map_trimToken_later {text trail : CStr} (htrail : IsBlanks trail) (hinner : '"' ∉ text) :
    (strtok [',', ';'] (text ++ '"' :: trail)).map trimToken =
      laterPieces (text.splitOnP fun c => [',', ';'].contains c) := by
  generalize hparts : text.splitOnP (fun c => [',', ';'].contains c) = parts
  induction parts generalizing text with
  | nil => exact absurd hparts (List.splitOnP_ne_nil _ _)
  | cons part parts ih =>
    rcases Library.Lines.splitOnP_cases hparts with ⟨rfl, rfl, hnone⟩ |
      ⟨separator, rest, rfl, hseparator, hnone, hrest⟩
    · rw [strtok_eq_singleton (by simp), List.map_singleton, trimToken_lastPart htrail hinner]
      · rfl
      · intro c hc
        rcases List.mem_append.mp hc with hc | hc
        · simpa using hnone c hc
        · rcases List.mem_cons.mp hc with rfl | hc
          · decide
          · intro hmem
            exact htrail.not_mem (isBlank_of_mem_separators hmem) hc
    · have hinner' : '"' ∉ part ∧ '"' ∉ rest := by
        rw [List.mem_append, List.mem_cons] at hinner
        tauto
      obtain ⟨next, parts', rfl⟩ : ∃ next parts', parts = next :: parts' := by
        rw [← hrest]
        exact List.exists_cons_of_ne_nil (List.splitOnP_ne_nil _ _)
      rw [List.append_assoc, List.cons_append, strtok_append_cons (by simpa using hseparator),
        List.map_append, ih hinner'.2 hrest, laterPieces]
      congr 1
      split_ifs with hempty
      · rw [hempty]
        rfl
      · rw [strtok_eq_singleton hempty fun c hc => by simpa using hnone c hc,
          List.map_singleton, trimToken_part hinner'.1]

theorem map_trimToken_written (h : entry.Broken) :
    (strtok [',', ';'] entry.written).map trimToken = quotedPieces entry.text := by
  have hquoted : entry.quoted = true := by
    by_contra hplain
    have hnone := (entry.plain (by simpa using hplain)).2
    exact h.elim hnone.1 hnone.2
  have hinner := entry.inner hquoted
  obtain ⟨part, parts, hparts⟩ := List.exists_cons_of_ne_nil
    (List.splitOnP_ne_nil (fun c => [',', ';'].contains c) entry.text)
  rcases Library.Lines.splitOnP_cases hparts with ⟨-, htext, hnone⟩ |
    ⟨separator, rest, htext, hseparator, hnone, hrest⟩
  · rw [← htext] at hnone
    have hcomma := hnone ','
    have hsemicolon := hnone ';'
    simp at hcomma hsemicolon
    exact (h.elim hcomma hsemicolon).elim
  · have hinner' : '"' ∉ part ∧ '"' ∉ rest := by
      rw [htext, List.mem_append, List.mem_cons] at hinner
      tauto
    have hwritten : entry.written =
        (entry.lead ++ '"' :: part) ++ separator :: (rest ++ '"' :: entry.trail) := by
      simp [written, body, hquoted, htext]
    rw [quotedPieces, hparts, hwritten, strtok_append_cons (by simpa using hseparator),
      List.map_append, map_trimToken_later entry.trail_blank hinner'.2, hrest,
      strtok_eq_singleton (by simp), List.map_singleton,
      trimToken_firstPart entry.lead_blank hinner'.1]
    · rfl
    · intro c hc
      rcases List.mem_append.mp hc with hc | hc
      · intro hmem
        exact entry.lead_blank.not_mem (isBlank_of_mem_separators hmem) hc
      · rcases List.mem_cons.mp hc with rfl | hc
        · decide
        · simpa using hnone c hc

def pieces (entry : ProcessEntry) : List CStr :=
  if entry.Broken then quotedPieces entry.text else [entry.text]

theorem map_trimToken_eq_pieces (entry : ProcessEntry) :
    (strtok [',', ';'] entry.written).map trimToken = entry.pieces := by
  unfold pieces
  split_ifs with h
  · exact map_trimToken_written h
  · rw [strtok_written h, List.map_singleton, entry.trimToken_written]

end ProcessEntry

theorem strtok_listText (first : ProcessEntry)
    (rest : List (Subtype IsSeparator × ProcessEntry)) :
    strtok [',', ';'] (listText first rest) =
      (listEntries first rest).flatMap fun entry => strtok [',', ';'] entry.written := by
  induction rest generalizing first with
  | nil => simp [listText, listEntries]
  | cons row rest ih =>
    obtain ⟨separator, entry⟩ := row
    rw [listText, strtok_append_cons separator.property, ih entry]
    rfl

theorem matchProcessList_listText_iff (first : ProcessEntry)
    (rest : List (Subtype IsSeparator × ProcessEntry)) (path : CStr) :
    matchProcessList (listText first rest) path = true ↔
      ∃ entry ∈ listEntries first rest,
        ∃ piece ∈ entry.pieces, matchProcessPattern piece path = true := by
  have hne : listText first rest ≠ [] := by
    cases rest with
    | nil => exact first.written_ne_nil
    | cons row rest => simp [listText, first.written_ne_nil]
  rw [matchProcessList, parseTokenList_iff (by decide) rfl, or_iff_right hne, strtok_listText]
  simp only [List.mem_flatMap, ← ProcessEntry.map_trimToken_eq_pieces, List.mem_map]
  constructor
  · rintro ⟨token, ⟨entry, hentry, htoken⟩, hmatches⟩
    exact ⟨entry, hentry, _, ⟨token, htoken, rfl⟩, hmatches⟩
  · rintro ⟨entry, hentry, _, ⟨token, htoken, rfl⟩, hmatches⟩
    exact ⟨token, ⟨entry, hentry, htoken⟩, hmatches⟩

theorem exists_broken_or_not (entries : List ProcessEntry) (matched : ProcessEntry → Prop) :
    (∃ entry ∈ entries, matched entry) ↔
      (∃ entry ∈ entries, ¬ entry.Broken ∧ matched entry) ∨
        ∃ entry ∈ entries, entry.Broken ∧ matched entry := by
  constructor
  · rintro ⟨entry, hentry, hmatched⟩
    by_cases h : entry.Broken
    · exact .inr ⟨entry, hentry, h, hmatched⟩
    · exact .inl ⟨entry, hentry, h, hmatched⟩
  · rintro (⟨entry, hentry, -, hmatched⟩ | ⟨entry, hentry, -, hmatched⟩)
    · exact ⟨entry, hentry, hmatched⟩
    · exact ⟨entry, hentry, hmatched⟩

/-- The list matches what its entries match exactly where the broken ones do not matter. -/
theorem matchProcessList_quoted_iff (first : ProcessEntry)
    (rest : List (Subtype IsSeparator × ProcessEntry)) (path : CStr) :
    (matchProcessList (listText first rest) path = true ↔
        ∃ entry ∈ listEntries first rest, matchProcessPattern entry.text path = true) ↔
      QuotesHold (listEntries first rest) path := by
  set entries := listEntries first rest
  have hclosed : (∃ entry ∈ entries, ¬ entry.Broken ∧
        ∃ piece ∈ entry.pieces, matchProcessPattern piece path = true) ↔
      ∃ entry ∈ entries, ¬ entry.Broken ∧ matchProcessPattern entry.text path = true := by
    apply exists_congr
    intro entry
    apply and_congr_right
    intro hentry
    apply and_congr_right
    intro hbroken
    rw [ProcessEntry.pieces, if_neg hbroken]
    simp
  have hbroken : (∃ entry ∈ entries, entry.Broken ∧
        ∃ piece ∈ entry.pieces, matchProcessPattern piece path = true) ↔
      ∃ entry ∈ entries, entry.Broken ∧
        ∃ piece ∈ quotedPieces entry.text, matchProcessPattern piece path = true := by
    apply exists_congr
    intro entry
    apply and_congr_right
    intro hentry
    apply and_congr_right
    intro hbroken
    rw [ProcessEntry.pieces, if_pos hbroken]
  rw [matchProcessList_listText_iff, exists_broken_or_not, hclosed, hbroken,
    exists_broken_or_not entries fun entry => matchProcessPattern entry.text path = true,
    QuotesHold]
  simp only [matchProcessPattern_windows_iff]
  by_cases hmatched : ∃ entry ∈ entries, ¬ entry.Broken ∧ Names .windows entry.text path
  · exact iff_of_true (iff_of_true (.inl hmatched) (.inl hmatched)) (.inl hmatched)
  · rw [or_iff_right hmatched, or_iff_right hmatched, or_iff_right hmatched]

/-- A quoted path with a comma in it. -/
def quotedPath : ProcessEntry where
  lead := []
  quoted := true
  text := "C:\\Foo, Inc\\app.exe".toList
  trail := []
  lead_blank := isBlanks_nil
  trail_blank := isBlanks_nil
  plain h := absurd h Bool.noConfusion
  plain_head h := absurd h Bool.noConfusion
  plain_last h := absurd h Bool.noConfusion
  inner _ := by decide

/-- The list does not match the path that it quotes. -/
theorem matchProcessList_quotedPath :
    listText quotedPath [] = "\"C:\\Foo, Inc\\app.exe\"".toList ∧
    matchProcessList (listText quotedPath []) "C:\\Foo, Inc\\app.exe".toList = false ∧
    matchProcessPattern quotedPath.text "C:\\Foo, Inc\\app.exe".toList = true := by
  refine ⟨by decide, by decide, by decide⟩

end ProxyTun.Windows
