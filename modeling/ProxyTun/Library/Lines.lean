import Mathlib.Data.List.TakeWhile

/-!
# Lines and fields

A text read line by line into a buffer of a fixed size, and a line split into fields at a separator.
-/
namespace ProxyTun.Library.Lines

variable {α : Type*} [DecidableEq α] {newline : α} {size : ℕ}

/-- What reads up to a newline return, each of at most `size` elements, where the first read has
`line` already. -/
def readLines (newline : α) (size : ℕ) (line : List α) : List α → List (List α)
  | [] => if line = [] then [] else [line]
  | c :: text =>
    if c = newline ∨ line.length + 1 = size then
      (line ++ [c]) :: readLines newline size [] text
    else readLines newline size (line ++ [c]) text

def unlines (newline : α) (lines : List (List α)) : List α :=
  lines.flatMap fun line => line ++ [newline]

theorem readLines_line {line text : List α} (start : List α) (hline : newline ∉ line)
    (hfits : start.length + line.length < size) :
    readLines newline size start (line ++ newline :: text) =
      (start ++ line ++ [newline]) :: readLines newline size [] text := by
  induction line generalizing start with
  | nil => simp [readLines]
  | cons c line ih =>
    obtain ⟨hc, hrest⟩ := not_or.mp (List.mem_cons.not.mp hline)
    rw [List.length_cons] at hfits
    have hgoes : ¬ (c = newline ∨ start.length + 1 = size) := by
      rintro (rfl | hfull)
      · exact hc rfl
      · omega
    have hnext : (start ++ [c]).length + line.length < size := by
      rw [List.length_append, List.length_singleton]
      omega
    rw [List.cons_append, readLines, if_neg hgoes, ih (start ++ [c]) hrest hnext]
    simp

theorem readLines_unlines {lines : List (List α)}
    (h : ∀ line ∈ lines, newline ∉ line ∧ line.length < size) :
    readLines newline size [] (unlines newline lines) =
      lines.map fun line => line ++ [newline] := by
  induction lines with
  | nil => rfl
  | cons line lines ih =>
    obtain ⟨⟨hline, hfits⟩, hrest⟩ := List.forall_mem_cons.mp h
    rw [unlines, List.flatMap_cons, List.append_assoc, List.singleton_append,
      readLines_line [] hline (by simpa using hfits), ← unlines, ih hrest]
    rfl

/-- The lines in front of an empty line, each ended by the two marks, and what follows it, where the
first line has begun with `line`. -/
def readBlock (cr lf : α) (line : List α) : List α → Option (List (List α) × List α)
  | a :: b :: text =>
    if a = cr ∧ b = lf then
      if line = [] then some ([], text)
      else (readBlock cr lf [] text).map fun r => (line :: r.1, r.2)
    else readBlock cr lf (line ++ [a]) (b :: text)
  | _ => none

def unblock (cr lf : α) (lines : List (List α)) : List α :=
  lines.flatMap (fun line => line ++ [cr, lf]) ++ [cr, lf]

theorem readBlock_cons {cr lf c : α} {text : List α} (start : List α) (hc : c ≠ cr)
    (htext : text ≠ []) :
    readBlock cr lf start (c :: text) = readBlock cr lf (start ++ [c]) text := by
  cases text with
  | nil => exact absurd rfl htext
  | cons d text => rw [readBlock, if_neg fun h => hc h.1]

theorem readBlock_line {cr lf : α} {line text : List α} (start : List α) (hline : cr ∉ line)
    (hnonempty : start ++ line ≠ []) :
    readBlock cr lf start (line ++ cr :: lf :: text) =
      (readBlock cr lf [] text).map fun r => ((start ++ line) :: r.1, r.2) := by
  induction line generalizing start with
  | nil =>
    rw [List.append_nil] at hnonempty
    rw [List.nil_append, readBlock, if_pos ⟨rfl, rfl⟩, if_neg hnonempty, List.append_nil]
  | cons c line ih =>
    obtain ⟨hc, hrest⟩ := not_or.mp (List.mem_cons.not.mp hline)
    rw [List.cons_append, readBlock_cons start (Ne.symm hc) (by simp), ih (start ++ [c]) hrest
      (by simp), List.append_assoc, List.singleton_append]

theorem readBlock_unblock {cr lf : α} {lines : List (List α)}
    (h : ∀ line ∈ lines, line ≠ [] ∧ cr ∉ line) (rest : List α) :
    readBlock cr lf [] (unblock cr lf lines ++ rest) = some (lines, rest) := by
  induction lines with
  | nil =>
    change readBlock cr lf [] (cr :: lf :: rest) = _
    rw [readBlock, if_pos ⟨rfl, rfl⟩, if_pos rfl]
  | cons line lines ih =>
    obtain ⟨⟨hnonempty, hline⟩, hrest⟩ := List.forall_mem_cons.mp h
    have htext : unblock cr lf (line :: lines) ++ rest =
        line ++ cr :: lf :: (unblock cr lf lines ++ rest) := by
      simp [unblock]
    rw [htext, readBlock_line [] hline (by simpa using hnonempty), ih hrest]
    rfl

theorem mem_of_mem_splitOn {separator c : α} {line field : List α}
    (hfield : field ∈ line.splitOn separator) (hc : c ∈ field) : c ≠ separator ∧ c ∈ line := by
  induction line generalizing field with
  | nil =>
    rw [List.splitOn_nil, List.mem_singleton] at hfield
    rw [hfield] at hc
    cases hc
  | cons d line ih =>
    rw [List.splitOn_cons_eq_if_modifyHead] at hfield
    split_ifs at hfield with hd
    · rcases List.mem_cons.mp hfield with rfl | hfield
      · cases hc
      · exact (ih hfield hc).imp_right (List.mem_cons_of_mem d)
    · obtain ⟨head, fields, hsplit⟩ :=
        List.exists_cons_of_ne_nil (List.splitOn_ne_nil separator line)
      rw [hsplit, List.modifyHead_cons] at hfield
      rw [hsplit] at ih
      rcases List.mem_cons.mp hfield with rfl | hfield
      · rcases List.mem_cons.mp hc with rfl | hc
        · exact ⟨by simpa using hd, List.mem_cons_self⟩
        · exact (ih List.mem_cons_self hc).imp_right (List.mem_cons_of_mem d)
      · exact (ih (List.mem_cons_of_mem head hfield) hc).imp_right (List.mem_cons_of_mem d)

omit [DecidableEq α] in
theorem mem_intercalate {separator c : α} {fields : List (List α)}
    (h : c ∈ [separator].intercalate fields) : c = separator ∨ ∃ f ∈ fields, c ∈ f := by
  induction fields with
  | nil => cases h
  | cons f fields ih =>
    cases fields with
    | nil =>
      rw [List.intercalate_singleton] at h
      exact .inr ⟨f, List.mem_cons_self, h⟩
    | cons f' fields =>
      rw [List.intercalate_cons_cons, List.mem_append, List.mem_append,
        List.mem_singleton] at h
      rcases h with (hf | hseparator) | hrest
      · exact .inr ⟨f, List.mem_cons_self, hf⟩
      · exact .inl hseparator
      · exact (ih hrest).imp_right fun ⟨g, hg, hc⟩ => ⟨g, List.mem_cons_of_mem f hg, hc⟩

omit [DecidableEq α] in
theorem length_intercalate_le {separator : α} {fields : List (List α)} {bound : ℕ}
    (h : ∀ f ∈ fields, f.length ≤ bound) :
    ([separator].intercalate fields).length ≤ (bound + 1) * fields.length := by
  induction fields with
  | nil => simp
  | cons f fields ih =>
    obtain ⟨hf, hrest⟩ := List.forall_mem_cons.mp h
    cases fields with
    | nil =>
      rw [List.intercalate_singleton, List.length_singleton]
      omega
    | cons f' fields =>
      have hlength := ih hrest
      rw [List.intercalate_cons_cons, List.length_append, List.length_append,
        List.length_singleton, List.length_cons, Nat.mul_succ]
      omega

omit [DecidableEq α] in
/-- Cutting at two kinds of separators is cutting at the one and then each piece at the other. -/
theorem splitOnP_or (p q : α → Bool) (text : List α) :
    (text.splitOnP fun c => p c || q c) = (text.splitOnP q).flatMap (List.splitOnP p) := by
  induction text with
  | nil => simp
  | cons c text ih =>
    rw [List.splitOnP_cons_eq_if_modifyHead, List.splitOnP_cons_eq_if_modifyHead, ih]
    obtain ⟨piece, pieces, hsplit⟩ := List.exists_cons_of_ne_nil (List.splitOnP_ne_nil q text)
    rw [hsplit]
    cases hq : q c with
    | true => simp
    | false =>
      rw [if_neg Bool.false_ne_true, List.modifyHead_cons, List.flatMap_cons, List.flatMap_cons,
        List.splitOnP_cons_eq_if_modifyHead]
      cases hp : p c with
      | true => simp
      | false =>
        obtain ⟨part, parts, hparts⟩ := List.exists_cons_of_ne_nil (List.splitOnP_ne_nil p piece)
        simp [hparts]

theorem splitOn_append (separator : α) (text behind : List α) :
    ∃ fields last, text.splitOn separator = fields ++ [last] ∧
      (text ++ behind).splitOn separator =
        fields ++ (behind.splitOn separator).modifyHead (last ++ ·) := by
  induction text with
  | nil =>
    obtain ⟨first, rest, hbehind⟩ :=
      List.exists_cons_of_ne_nil (List.splitOn_ne_nil separator behind)
    exact ⟨[], [], List.splitOn_nil separator, by simp [hbehind]⟩
  | cons c text ih =>
    obtain ⟨fields, last, htext, hboth⟩ := ih
    obtain ⟨first, rest, hbehind⟩ :=
      List.exists_cons_of_ne_nil (List.splitOn_ne_nil separator behind)
    rw [List.cons_append, List.splitOn_cons_eq_if_modifyHead, List.splitOn_cons_eq_if_modifyHead,
      htext, hboth, hbehind]
    split_ifs with hc
    · exact ⟨[] :: fields, last, rfl, rfl⟩
    · cases fields with
      | nil => exact ⟨[], c :: last, rfl, rfl⟩
      | cons field fields => exact ⟨(c :: field) :: fields, last, rfl, rfl⟩

/-- The first field is a front of the text, which is empty only if the text is or a separator comes
first. -/
theorem splitOn_take (separator : α) (text : List α) :
    ∃ n fields, text.splitOn separator = text.take n :: fields ∧
      (text ≠ [] → text.head? ≠ some separator → text.take n ≠ []) := by
  by_cases hmem : separator ∈ text
  · obtain ⟨first, rest, rfl, hfirst⟩ := List.eq_append_cons_of_mem hmem
    refine ⟨first.length, rest.splitOn separator, ?_, ?_⟩
    · rw [List.splitOn_append_cons_self_of_not_mem hfirst, List.take_left]
    · intro _ hhead
      rw [List.take_left]
      rintro rfl
      exact hhead rfl
  · refine ⟨text.length, [], ?_, ?_⟩
    · rw [List.splitOn_eq_singleton hmem, List.take_length]
    · intro hne _
      rwa [List.take_length]

section Runs
variable {p : α → Bool}

omit [DecidableEq α] in
theorem splitOnP_cases {piece : List α} {pieces : List (List α)} {whole : List α}
    (h : whole.splitOnP p = piece :: pieces) :
    (pieces = [] ∧ whole = piece ∧ ∀ c ∈ piece, p c = false) ∨
      ∃ separator rest, whole = piece ++ separator :: rest ∧ p separator = true ∧
        (∀ c ∈ piece, p c = false) ∧ rest.splitOnP p = pieces := by
  by_cases hnone : ∀ c ∈ whole, p c = false
  · rw [List.splitOnP_eq_singleton hnone] at h
    obtain ⟨rfl, rfl⟩ := List.cons.inj h
    exact .inl ⟨rfl, rfl, hnone⟩
  · obtain ⟨separator, hfind⟩ : ∃ separator, whole.find? p = some separator := by
      rw [← Option.isSome_iff_exists, List.find?_isSome]
      simpa using hnone
    obtain ⟨hseparator, front, rest, rfl, hfront⟩ := List.find?_eq_some_iff_append.mp hfind
    replace hfront : ∀ c ∈ front, p c = false := fun c hc => by simpa using hfront c hc
    rw [List.splitOnP_append_cons_of_forall_mem hfront separator hseparator] at h
    obtain ⟨rfl, rfl⟩ := List.cons.inj h
    exact .inr ⟨separator, rest, rfl, hseparator, hfront, rfl⟩

/-- A maximal piece of a text without separators: what it has on either side is a separator or
the end of the text. -/
def IsRun (p : α → Bool) (whole run : List α) : Prop :=
  ∃ before behind, whole = before ++ run ++ behind ∧ (∀ c ∈ run, p c = false) ∧
    (∀ c ∈ before.getLast?, p c = true) ∧ ∀ c ∈ behind.head?, p c = true

omit [DecidableEq α] in
theorem IsRun.append_cons {rest run : List α} (h : IsRun p rest run) (front : List α)
    {separator : α} (hseparator : p separator = true) :
    IsRun p (front ++ separator :: rest) run := by
  obtain ⟨before, behind, rfl, hrun, hbefore, hbehind⟩ := h
  refine ⟨front ++ separator :: before, behind, by simp, hrun, ?_, hbehind⟩
  intro c hc
  rw [List.getLast?_append, List.getLast?_cons, Option.some_or, Option.mem_some_iff] at hc
  cases hlast : before.getLast? with
  | none =>
    rw [hlast, Option.getD_none] at hc
    rwa [← hc]
  | some d =>
    rw [hlast, Option.getD_some] at hc
    rw [← hc]
    exact hbefore d hlast

omit [DecidableEq α] in
/-- What a text is cut into at its separators is its maximal pieces without them. -/
theorem mem_splitOnP_iff_isRun {whole run : List α} :
    run ∈ whole.splitOnP p ↔ IsRun p whole run := by
  constructor
  · intro h
    generalize hpieces : whole.splitOnP p = pieces at h
    induction pieces generalizing whole with
    | nil => cases h
    | cons piece pieces ih =>
      rcases splitOnP_cases hpieces with
        ⟨rfl, rfl, hnone⟩ | ⟨separator, rest, rfl, hseparator, hpiece, hrest⟩
      · rw [List.mem_singleton.mp h]
        exact ⟨[], [], by simp, hnone, by simp, by simp⟩
      · rcases List.mem_cons.mp h with rfl | hmem
        · exact ⟨[], separator :: rest, by simp, hpiece, by simp, by simpa using hseparator⟩
        · exact (ih hrest hmem).append_cons piece hseparator
  · rintro ⟨before, behind, rfl, hrun, hbefore, hbehind⟩
    have hfirst : run ∈ (run ++ behind).splitOnP p := by
      cases behind with
      | nil =>
        rw [List.append_nil, List.splitOnP_eq_singleton hrun]
        exact List.mem_singleton_self run
      | cons separator rest =>
        rw [List.splitOnP_append_cons_of_forall_mem hrun separator (hbehind separator rfl)]
        exact List.mem_cons_self
    rcases List.eq_nil_or_concat before with rfl | ⟨front, separator, rfl⟩
    · exact hfirst
    · rw [List.concat_eq_append, List.append_assoc, List.append_assoc, List.singleton_append,
        List.splitOnP_append_cons front _ (hbefore separator (by simp))]
      exact List.mem_append_right _ hfirst

end Runs

end ProxyTun.Library.Lines
