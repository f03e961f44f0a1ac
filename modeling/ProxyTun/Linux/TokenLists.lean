import Mathlib.Data.List.DropRight
import Mathlib.Data.List.Induction
import ProxyTun.Core.Filters
import ProxyTun.Library.Lines

/-!
# The token loop of the Linux lists

`parse_token_list` works on a copy of the list. `strtok_r` ends each token with a zero and keeps
a pointer behind it, and the trimming of a token puts further zeros in front of that one. Each
pass leaves the part of the copy behind the pointer as it was.
-/
namespace ProxyTun.Linux.TokenLists
open Library

def nul : Char := '\x00'

/-- A string that a caller passes has no zero before its end. -/
structure Text where
  chars : CStr
  noZero : nul ∉ chars

def textAt (buffer : List Char) (i : ℕ) : CStr := (buffer.drop i).takeWhile (· != nul)

/-- What `strtok_r` returns, the buffer it leaves and its saved pointer. -/
structure Strtok where
  token : Option ℕ
  buffer : List Char
  saveptr : ℕ

def strtokR (delimiters buffer : List Char) (start : ℕ) : Strtok :=
  let token := start + ((textAt buffer start).takeWhile fun c => delimiters.contains c).length
  if textAt buffer token = [] then ⟨none, buffer, token⟩
  else
    let stop := token + ((textAt buffer token).takeWhile fun c => !delimiters.contains c).length
    if textAt buffer stop = [] then ⟨some token, buffer, stop⟩
    else ⟨some token, buffer.set stop nul, stop + 1⟩

def skipWhitespaceAt (buffer : List Char) (str : ℕ) : ℕ :=
  str + ((textAt buffer str).takeWhile isBlank).length

def isTrailing (c : Char) : Bool := isBlank c || c = '\r' || c = '\n'

/-- The loop that removes blanks from the end of a token, and the length it leaves. -/
def trimEnd (token : ℕ) : ℕ → List Char → List Char × ℕ
  | 0, buffer => (buffer, 0)
  | tlen + 1, buffer =>
    if isTrailing (buffer.getD (token + tlen) nul) then
      trimEnd token tlen (buffer.set (token + tlen) nul)
    else (buffer, tlen + 1)

theorem length_trimEnd (token tlen : ℕ) (buffer : List Char) :
    (trimEnd token tlen buffer).1.length = buffer.length := by
  induction tlen generalizing buffer with
  | zero => rfl
  | succ tlen ih =>
    rw [trimEnd]
    split
    · rw [ih, List.length_set]
    · rfl

variable {delimiters buffer : List Char}

theorem lt_length_of_textAt_ne_nil {i : ℕ} (h : textAt buffer i ≠ []) : i < buffer.length := by
  by_contra hge
  rw [textAt, List.drop_eq_nil_of_le (not_lt.mp hge)] at h
  exact h rfl

/-- Skipping what is in front of a string leads to the rest of it. -/
theorem textAt_add_length (p : Char → Bool) (buffer : List Char) (i : ℕ) :
    textAt buffer (i + ((textAt buffer i).takeWhile p).length) =
      (textAt buffer i).dropWhile p := by
  rw [textAt, ← List.drop_drop, textAt]
  induction buffer.drop i with
  | nil => rfl
  | cons c cs ih =>
    by_cases hzero : (c != nul) = true
    · cases hc : p c with
      | true => simpa [hzero, hc] using ih
      | false => simp [hzero, hc]
    · simp [hzero]

/-- A string as its first token, with the delimiters in front of it and what is behind it. -/
structure Cut (delimiters text skipped token behind : CStr) : Prop where
  eq : text = skipped ++ (token ++ behind)
  skips : ∀ c ∈ skipped, delimiters.contains c = true
  nonempty : token ≠ []
  free : ∀ c ∈ token, delimiters.contains c = false
  ends : ∀ c ∈ behind.head?, delimiters.contains c = true

theorem exists_cut (delimiters : List Char) {text : CStr}
    (h : text.dropWhile (fun c => delimiters.contains c) ≠ []) :
    ∃ skipped token behind, Cut delimiters text skipped token behind := by
  have htext : text.takeWhile (fun c => delimiters.contains c) ++
      text.dropWhile (fun c => delimiters.contains c) = text := List.takeWhile_append_dropWhile
  have hfirst : delimiters.contains ((text.dropWhile fun c => delimiters.contains c).head h) =
      false := List.head_dropWhile_not (fun c => delimiters.contains c) h
  generalize text.dropWhile (fun c => delimiters.contains c) = rest at h htext hfirst
  obtain ⟨d, ds, rfl⟩ := List.exists_cons_of_ne_nil h
  rw [List.head_cons] at hfirst
  refine ⟨text.takeWhile fun c => delimiters.contains c,
    (d :: ds).takeWhile fun c => !delimiters.contains c,
    (d :: ds).dropWhile fun c => !delimiters.contains c, ?_, ?_, ?_, ?_, ?_⟩
  · rw [List.takeWhile_append_dropWhile, htext]
  · intro c hc
    exact List.mem_takeWhile_imp hc
  · rw [List.takeWhile_cons, hfirst]
    exact List.cons_ne_nil _ _
  · intro c hc
    simpa using List.mem_takeWhile_imp hc
  · intro c hc
    have hne : (d :: ds).dropWhile (fun c => !delimiters.contains c) ≠ [] := by
      intro hempty
      rw [hempty] at hc
      cases hc
    rw [List.head?_eq_some_head hne, Option.mem_some_iff] at hc
    rw [← hc]
    simpa using List.head_dropWhile_not (fun c => !delimiters.contains c) hne

variable {start : ℕ} {skipped token behind : CStr}

theorem strtokR_none
    (h : (textAt buffer start).dropWhile (fun c => delimiters.contains c) = []) :
    (strtokR delimiters buffer start).token = none := by
  rw [strtokR]
  simp only
  rw [if_pos ((textAt_add_length _ buffer start).trans h)]

/-- The first token is found behind the delimiters, and ended where the next one follows. -/
theorem strtokR_some (h : Cut delimiters (textAt buffer start) skipped token behind) :
    strtokR delimiters buffer start =
      if behind = [] then
        ⟨some (start + skipped.length), buffer, start + skipped.length + token.length⟩
      else
        ⟨some (start + skipped.length),
          buffer.set (start + skipped.length + token.length) nul,
          start + skipped.length + token.length + 1⟩ := by
  have hhead : ∀ c ∈ (token ++ behind).head?, delimiters.contains c = false := by
    intro c hc
    obtain ⟨d, ds, rfl⟩ := List.exists_cons_of_ne_nil h.nonempty
    obtain rfl : d = c := by simpa using hc
    exact h.free d List.mem_cons_self
  obtain ⟨hskip, hrest⟩ := span_append h.skips hhead
  obtain ⟨htoken, hbehind⟩ := span_append (p := fun c => !delimiters.contains c)
    (fun c hc => by simpa using h.free c hc) (fun c hc => by simpa using h.ends c hc)
  rw [← h.eq] at hskip hrest
  have hstart : textAt buffer (start + skipped.length) = token ++ behind := by
    rw [← hskip, textAt_add_length, hrest]
  have hstop : textAt buffer (start + skipped.length + token.length) = behind := by
    rw [← hbehind, ← hstart, ← textAt_add_length, hstart, htoken]
  rw [strtokR]
  simp only [hskip, hstart, htoken, hstop]
  rw [if_neg (by simp [h.nonempty])]

/-- A token lies behind the pointer, and the saved pointer behind the token. -/
theorem strtokR_advances {found : ℕ} (h : (strtokR delimiters buffer start).token = some found) :
    start < (strtokR delimiters buffer start).saveptr ∧ start < buffer.length ∧
      (strtokR delimiters buffer start).buffer.length = buffer.length := by
  have hsome : (textAt buffer start).dropWhile (fun c => delimiters.contains c) ≠ [] := by
    intro hnone
    rw [strtokR_none hnone] at h
    cases h
  have hlt : start < buffer.length := by
    apply lt_length_of_textAt_ne_nil
    intro hempty
    rw [hempty] at hsome
    exact hsome rfl
  obtain ⟨skipped, token, behind, hcut⟩ := exists_cut delimiters hsome
  have hpos : 0 < token.length := List.length_pos_iff.mpr hcut.nonempty
  rw [strtokR_some hcut]
  split_ifs with hlast
  · exact ⟨by simp only; omega, hlt, rfl⟩
  · exact ⟨by simp only; omega, hlt, List.length_set⟩

def parseLoop (delimiters : List Char) (matchFunc : CStr → Bool) (buffer : List Char)
    (start : ℕ) : Bool :=
  let next := strtokR delimiters buffer start
  match _h : next.token with
  | none => false
  | some token =>
    let token := skipWhitespaceAt next.buffer token
    let trimmed := trimEnd token (textAt next.buffer token).length next.buffer
    if 0 < trimmed.2 && matchFunc (textAt trimmed.1 token) then true
    else parseLoop delimiters matchFunc trimmed.1 next.saveptr
termination_by buffer.length - start
decreasing_by
  obtain ⟨hptr, hstart, hlength⟩ := strtokR_advances _h
  rw [length_trimEnd]
  omega

/-- `parse_token_list` of a list that may be missing, where `malloc` may fail. -/
def parseTokenList (malloc : Bool) (list : Option Text) (delimiters : List Char)
    (matchFunc : CStr → Bool) : Bool :=
  match list with
  | none => true
  | some list =>
    if list.chars = [] || list.chars = ['*'] then true
    else if malloc then parseLoop delimiters matchFunc (list.chars ++ [nul]) 0
    else false

section Pass
variable {front text tail : List Char}

theorem textAt_append (front : List Char) (htext : nul ∉ text) (tail : List Char) :
    textAt (front ++ (text ++ nul :: tail)) front.length = text := by
  rw [textAt, List.drop_left, takeWhile_ne_append htext]

/-- The zeros written over the blanks at the end of a token meet the zero behind it. -/
theorem trimEnd_eq (front text tail : List Char) :
    ∃ count, trimEnd front.length text.length (front ++ (text ++ tail)) =
      (front ++ (text.rdropWhile isTrailing ++ (List.replicate count nul ++ tail)),
        (text.rdropWhile isTrailing).length) ∧
      (text.rdropWhile isTrailing).length + count = text.length := by
  induction text using List.reverseRecOn generalizing tail with
  | nil => exact ⟨0, rfl, rfl⟩
  | append_singleton text c ih =>
    have hget : (front ++ (text ++ [c] ++ tail)).getD (front.length + text.length) nul = c := by
      simp
    have hset : (front ++ (text ++ [c] ++ tail)).set (front.length + text.length) nul =
        front ++ (text ++ (nul :: tail)) := by
      simp
    rw [List.length_append, List.length_singleton, trimEnd, hget, hset]
    split_ifs with hc
    · obtain ⟨count, htrim, hlength⟩ := ih (nul :: tail)
      refine ⟨count + 1, ?_, ?_⟩
      · rw [htrim, List.rdropWhile_concat_pos _ _ _ hc, List.replicate_succ', List.append_assoc,
          List.singleton_append]
      · rw [List.rdropWhile_concat_pos _ _ _ hc]
        omega
    · refine ⟨0, ?_, ?_⟩
      · rw [List.rdropWhile_concat_neg _ _ _ hc]
        simp
      · rw [List.rdropWhile_concat_neg _ _ _ hc]
        simp

theorem trimToken_eq_rdropWhile (token : CStr) :
    trimToken token = (skipWhitespace token).rdropWhile isTrailing := rfl

/-- A pass over a token tests the token without its blanks, and the buffer behind the token stays
as it was. -/
theorem trim_pass (front : List Char) {token : CStr} (htoken : nul ∉ token) (tail : List Char) :
    ∃ first padded, padded.length = token.length ∧
      skipWhitespaceAt (front ++ (token ++ nul :: tail)) front.length = first ∧
      trimEnd first (textAt (front ++ (token ++ nul :: tail)) first).length
          (front ++ (token ++ nul :: tail)) =
        (front ++ (padded ++ nul :: tail), (trimToken token).length) ∧
      textAt (front ++ (padded ++ nul :: tail)) first = trimToken token := by
  have hsplit : token.takeWhile isBlank ++ skipWhitespace token = token :=
    List.takeWhile_append_dropWhile
  have hrest : nul ∉ skipWhitespace token := fun h =>
    htoken ((List.dropWhile_sublist isBlank).subset h)
  have hkept : nul ∉ trimToken token := fun h =>
    hrest ((List.rdropWhile_prefix isTrailing _).subset h)
  have hbuffer : front ++ (token ++ nul :: tail) =
      (front ++ token.takeWhile isBlank) ++ (skipWhitespace token ++ nul :: tail) := by
    rw [List.append_assoc, ← List.append_assoc (List.takeWhile isBlank token), hsplit]
  have hfirst : skipWhitespaceAt (front ++ (token ++ nul :: tail)) front.length =
      (front ++ token.takeWhile isBlank).length := by
    rw [skipWhitespaceAt, textAt_append front htoken, List.length_append]
  obtain ⟨count, htrim, hlength⟩ :=
    trimEnd_eq (front ++ token.takeWhile isBlank) (skipWhitespace token) (nul :: tail)
  rw [← trimToken_eq_rdropWhile] at htrim hlength
  have hzeros : List.replicate count nul ++ nul :: tail =
      nul :: (List.replicate count nul ++ tail) := by
    rw [← List.cons_append, ← List.replicate_succ, List.replicate_succ', List.append_assoc,
      List.singleton_append]
  refine ⟨(front ++ token.takeWhile isBlank).length,
    token.takeWhile isBlank ++ (trimToken token ++ List.replicate count nul), ?_, hfirst, ?_, ?_⟩
  · rw [List.length_append, List.length_append, List.length_replicate, hlength,
      ← List.length_append, hsplit]
  · rw [hbuffer, textAt_append _ hrest, htrim]
    simp only [List.append_assoc]
  · rw [List.append_assoc, List.append_assoc, hzeros, ← List.append_assoc]
    exact textAt_append _ hkept _

/-- The call of `strtok_r` that cuts off a token leaves the rest of the string behind its saved
pointer, whatever the token itself is overwritten with. -/
theorem strtokR_layout (front : List Char) (htext : nul ∉ text)
    (h : Cut delimiters text skipped token behind) :
    ∃ saveptr tail, strtokR delimiters (front ++ (text ++ [nul])) front.length =
        ⟨some (front ++ skipped).length, (front ++ skipped) ++ (token ++ nul :: tail), saveptr⟩ ∧
      ∀ padded : List Char, padded.length = token.length →
        ∃ front', (front ++ skipped) ++ (padded ++ nul :: tail) = front' ++ (behind.tail ++ [nul]) ∧
          front'.length = saveptr := by
  have hat : textAt (front ++ (text ++ [nul])) front.length = text := textAt_append front htext []
  rw [← hat] at h
  rw [strtokR_some h, ← List.length_append, ← List.length_append]
  rw [hat] at h
  cases behind with
  | nil =>
    refine ⟨(front ++ skipped ++ token).length, [], ?_, ?_⟩
    · rw [if_pos rfl, h.eq]
      simp only [List.append_nil, List.append_assoc]
    · intro padded hpadded
      refine ⟨front ++ skipped ++ padded, ?_, ?_⟩
      · simp only [List.tail_nil, List.nil_append, List.append_assoc]
      · rw [List.length_append, hpadded, ← List.length_append]
  | cons d more =>
    refine ⟨(front ++ skipped ++ token).length + 1, more ++ [nul], ?_, ?_⟩
    · have hset : (front ++ (text ++ [nul])).set (front ++ skipped ++ token).length nul =
          front ++ skipped ++ (token ++ nul :: (more ++ [nul])) := by
        have hbuffer : front ++ (text ++ [nul]) =
            (front ++ skipped ++ token) ++ d :: (more ++ [nul]) := by
          rw [h.eq]
          simp
        rw [hbuffer, List.set_append_right _ _ le_rfl, Nat.sub_self, List.set_cons_zero,
          List.append_assoc (front ++ skipped)]
      rw [if_neg (List.cons_ne_nil d more), hset]
    · intro padded hpadded
      refine ⟨front ++ skipped ++ padded ++ [nul], ?_, ?_⟩
      · simp only [List.tail_cons, List.append_assoc, List.singleton_append]
      · rw [List.length_append, List.length_append, hpadded, ← List.length_append,
          List.length_singleton]

theorem strtok_append (h : ∀ c ∈ skipped, delimiters.contains c = true) (text : CStr) :
    strtok delimiters (skipped ++ text) = strtok delimiters text := by
  induction skipped with
  | nil => rfl
  | cons c skipped ih =>
    obtain ⟨hc, hrest⟩ := List.forall_mem_cons.mp h
    rw [← ih hrest, strtok, List.cons_append, List.splitOnP_cons_eq_if_modifyHead, if_pos hc,
      List.filter_cons_of_neg (by simp), ← strtok]

theorem strtok_cut (h : Cut delimiters text skipped token behind) :
    strtok delimiters text = token :: strtok delimiters behind.tail := by
  have hkept : token.isEmpty = false := by simpa using h.nonempty
  rw [h.eq, strtok_append h.skips]
  cases behind with
  | nil =>
    rw [List.append_nil, strtok, List.splitOnP_eq_singleton h.free, List.filter_cons, hkept]
    rfl
  | cons d more =>
    rw [strtok, List.splitOnP_append_cons_of_forall_mem h.free d (h.ends d rfl),
      List.filter_cons, hkept]
    rfl

end Pass

variable {matchFunc : CStr → Bool}

theorem parseLoop_none (h : (strtokR delimiters buffer start).token = none) :
    parseLoop delimiters matchFunc buffer start = false := by
  rw [parseLoop]
  split
  · rfl
  · next htoken =>
    rw [h] at htoken
    cases htoken

theorem parseLoop_some {next : Strtok} {found first : ℕ} {trimmed : List Char × ℕ}
    (hnext : strtokR delimiters buffer start = next) (hfound : next.token = some found)
    (hfirst : skipWhitespaceAt next.buffer found = first)
    (htrimmed : trimEnd first (textAt next.buffer first).length next.buffer = trimmed) :
    parseLoop delimiters matchFunc buffer start =
      ((0 < trimmed.2 && matchFunc (textAt trimmed.1 first)) ||
        parseLoop delimiters matchFunc trimmed.1 next.saveptr) := by
  subst hnext hfirst htrimmed
  rw [parseLoop]
  split
  · next htoken =>
    rw [hfound] at htoken
    cases htoken
  · next found' htoken =>
    obtain rfl : found' = found := Option.some.inj (htoken.symm.trans hfound)
    dsimp only
    split_ifs with hmatch
    · rw [hmatch, Bool.true_or]
    · rw [Bool.eq_false_iff.mpr hmatch, Bool.false_or]

/-- The loop asks for one token of the string at its pointer that matches when it is trimmed. -/
theorem parseLoop_eq (matchFunc : CStr → Bool) (front : List Char) {text : CStr}
    (htext : nul ∉ text) :
    parseLoop delimiters matchFunc (front ++ (text ++ [nul])) front.length =
      (strtok delimiters text).any fun token =>
        trimToken token ≠ [] && matchFunc (trimToken token) := by
  induction hlength : text.length using Nat.strong_induction_on generalizing front text with
  | _ n ih =>
    by_cases hnone : text.dropWhile (fun c => delimiters.contains c) = []
    · have hall : strtok delimiters text = [] := by
        rw [← List.append_nil text, strtok_append (List.dropWhile_eq_nil_iff.mp hnone)]
        rfl
      rw [hall]
      apply parseLoop_none
      apply strtokR_none
      rw [textAt_append front htext]
      exact hnone
    · obtain ⟨skipped, token, behind, hcut⟩ := exists_cut delimiters hnone
      have htoken : nul ∉ token := by
        intro hmem
        apply htext
        rw [hcut.eq]
        simp [hmem]
      obtain ⟨saveptr, tail, hnext, hrest⟩ := strtokR_layout front htext hcut
      obtain ⟨first, padded, hpadded, hfirst, htrim, hat⟩ :=
        trim_pass (front ++ skipped) htoken tail
      obtain ⟨front', hfront', rfl⟩ := hrest padded hpadded
      have hbehind : nul ∉ behind.tail := by
        intro hmem
        apply htext
        rw [hcut.eq]
        simp [List.mem_of_mem_tail hmem]
      have hshorter : behind.tail.length < n := by
        have hpos : 0 < token.length := List.length_pos_iff.mpr hcut.nonempty
        rw [← hlength, hcut.eq, List.length_append, List.length_append, List.length_tail]
        omega
      rw [strtok_cut hcut, List.any_cons, parseLoop_some hnext rfl hfirst htrim]
      dsimp only
      rw [hat, hfront', ih _ hshorter front' hbehind rfl, decide_eq_decide.mpr List.length_pos_iff]

/-- With a copy of the list, `parse_token_list` is the list filter of the rule evaluation. -/
theorem parseTokenList_eq_parseTrimmedList (list : Text) (delimiters : List Char)
    (matchFunc : CStr → Bool) :
    parseTokenList true (some list) delimiters matchFunc =
      parseTrimmedList delimiters matchFunc list.chars := by
  rw [parseTrimmedList, ProxyTun.parseTokenList, parseTokenList]
  simp only [if_true]
  split_ifs with hall
  · rw [hall, Bool.true_or]
  · rw [Bool.eq_false_iff.mpr hall, Bool.false_or]
    exact parseLoop_eq matchFunc [] list.noZero

theorem filters_eq_parseTokenList (list : Text) (process : CStr) (ip : Ip) (port : Port) :
    filters.matchProcessList list.chars process =
        parseTokenList true (some list) [';'] (fun token => matchProcessPattern token process) ∧
      filters.matchIpList list.chars ip =
        parseTokenList true (some list) [';'] (fun token => matchIpPattern token ip) ∧
      filters.matchPortList list.chars port =
        parseTokenList true (some list) [',', ';'] (fun token => matchPortPattern token port) := by
  simp only [parseTokenList_eq_parseTrimmedList]
  exact ⟨rfl, rfl, rfl⟩

/-- The maximal pieces of a list without delimiters, trimmed, as far as something is left. -/
def tokens (delimiters : List Char) (list : Text) : Set CStr :=
  {token | token ≠ [] ∧
    ∃ run, Lines.IsRun (fun c => delimiters.contains c) list.chars run ∧ trimToken run = token}

theorem parseTokenList_iff_mem_tokens {list : Text} (hempty : list.chars ≠ [])
    (hstar : list.chars ≠ ['*']) (delimiters : List Char) (matchFunc : CStr → Bool) :
    parseTokenList true (some list) delimiters matchFunc = true ↔
      ∃ token ∈ tokens delimiters list, matchFunc token = true := by
  rw [parseTokenList_eq_parseTrimmedList, parseTrimmedList, ProxyTun.parseTokenList,
    decide_eq_false hempty, decide_eq_false hstar, Bool.false_or, Bool.false_or, List.any_eq_true]
  constructor
  · rintro ⟨run, hrun, hmatch⟩
    rw [Bool.and_eq_true, decide_eq_true_eq] at hmatch
    have hpiece := (List.mem_filter.mp hrun).1
    exact ⟨trimToken run, ⟨hmatch.1, run, Lines.mem_splitOnP_iff_isRun.mp hpiece, rfl⟩, hmatch.2⟩
  · rintro ⟨-, ⟨hne, run, hrun, rfl⟩, hmatch⟩
    refine ⟨run, List.mem_filter.mpr ⟨Lines.mem_splitOnP_iff_isRun.mpr hrun, ?_⟩, ?_⟩
    · cases run with
      | nil => exact absurd rfl hne
      | cons c cs => rfl
    · rw [Bool.and_eq_true, decide_eq_true_eq]
      exact ⟨hne, hmatch⟩

/-- A list other than the empty one and the star matches exactly when the predicate holds of one
of its maximal pieces without delimiters, trimmed and not empty. Only which of them there are
matters, not their order or how often they occur. -/
theorem parseTokenList_iff_exists_run (list : Text) (hempty : list.chars ≠ [])
    (hstar : list.chars ≠ ['*']) (delimiters : List Char) (matchFunc : CStr → Bool) :
    (parseTokenList true (some list) delimiters matchFunc = true ↔
      ∃ run, Lines.IsRun (fun c => delimiters.contains c) list.chars run ∧ trimToken run ≠ [] ∧
        matchFunc (trimToken run) = true) ∧
    ∀ other : Text, other.chars ≠ [] → other.chars ≠ ['*'] →
      tokens delimiters other = tokens delimiters list →
      parseTokenList true (some other) delimiters matchFunc =
        parseTokenList true (some list) delimiters matchFunc := by
  constructor
  · rw [parseTokenList_iff_mem_tokens hempty hstar]
    constructor
    · rintro ⟨-, ⟨hne, run, hrun, rfl⟩, hmatch⟩
      exact ⟨run, hrun, hne, hmatch⟩
    · rintro ⟨run, hrun, hne, hmatch⟩
      exact ⟨trimToken run, ⟨hne, run, hrun, rfl⟩, hmatch⟩
  · intro other hempty' hstar' htokens
    rw [Bool.eq_iff_iff, parseTokenList_iff_mem_tokens hempty' hstar', htokens,
      parseTokenList_iff_mem_tokens hempty hstar]

/-- The second token of a list, between blanks and a line end. -/
theorem parseTokenList_iff_exists_run_second :
    parseTokenList true (some ⟨" a;\tb\r\n".toList, by decide⟩) [';'] (fun token => token = ['b']) =
      true := by
  have htrim : trimToken "\tb\r\n".toList = ['b'] := rfl
  apply (parseTokenList_iff_exists_run _ (by decide) (by decide) _ _).1.mpr
  refine ⟨"\tb\r\n".toList, ⟨" a;".toList, [], rfl, ?_, ?_, ?_⟩, ?_, ?_⟩
  · simp
  · simp
  · simp
  · rw [htrim]
    simp
  · rw [htrim]
    rfl

end ProxyTun.Linux.TokenLists
