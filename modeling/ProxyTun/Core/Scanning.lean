import ProxyTun.Core.Numerals

/-!
# What stands behind numbers

`strtol` and `sscanf` skip blanks before a number and stop at what is behind it, so that blanks at
the end of a text, or a comma and all that follows it, make no difference to the numbers that are
read.
-/
namespace ProxyTun

def IsBlanks (text : CStr) : Prop := ∀ c ∈ text, isBlank c = true

theorem IsBlanks.isSpace {blanks : CStr} (h : IsBlanks blanks) {c : Char} (hc : c ∈ blanks) :
    isSpace c = true ∧ isDigit c = false ∧ c ≠ '.' ∧ c ≠ '*' ∧ c ≠ '-' := by
  have hblank := h c hc
  simp only [isBlank, Bool.or_eq_true, decide_eq_true_eq] at hblank
  rcases hblank with rfl | rfl
  · decide
  · decide

theorem IsBlanks.take {blanks : CStr} (h : IsBlanks blanks) (n : ℕ) : IsBlanks (blanks.take n) :=
  fun c hc => h c (List.mem_of_mem_take hc)

theorem IsBlanks.not_mem {blanks : CStr} (h : IsBlanks blanks) {c : Char}
    (hc : isBlank c = false) : c ∉ blanks := by
  intro hmem
  rw [h c hmem] at hc
  cases hc

/-- A text behind numbers that is not read: no digit or dot goes on a number, and no number starts
it. -/
structure Inert (behind : CStr) : Prop where
  head : ∀ c ∈ behind.head?, isDigit c = false ∧ c ≠ '.'
  unread : strtol behind = none

theorem IsBlanks.inert {blanks : CStr} (h : IsBlanks blanks) : Inert blanks where
  head c hc := by
    have hblank := h.isSpace (List.mem_of_mem_head? hc)
    exact ⟨hblank.2.1, hblank.2.2.1⟩
  unread := by
    have hnone : blanks.dropWhile ProxyTun.isSpace = [] :=
      List.dropWhile_eq_nil_iff.mpr fun c hc => (h.isSpace hc).1
    rw [strtol_eq, hnone]
    rfl

def beforeComma (text : CStr) : CStr := text.takeWhile (· != ',')

theorem inert_from_comma (text : CStr) : Inert (text.dropWhile (· != ',')) := by
  cases hfrom : text.dropWhile (· != ',') with
  | nil => exact ⟨(fun _ hc => nomatch hc), rfl⟩
  | cons c rest =>
    obtain rfl : c = ',' := by
      have hhead := List.head_dropWhile_not (p := (· != ',')) (l := text) (by simp [hfrom])
      simpa [hfrom] using hhead
    refine ⟨?_, ?_⟩
    · rintro c ⟨⟩
      decide
    · simp [strtol, isSpace, isDigit]

section
variable {behind : CStr} (h : Inert behind)
include h

theorem takeWhile_isDigit_inert (text : CStr) :
    (text ++ behind).takeWhile isDigit = text.takeWhile isDigit := by
  induction text with
  | nil =>
    cases behind with
    | nil => rfl
    | cons c cs => simp [(h.head c rfl).1]
  | cons c text ih =>
    rw [List.cons_append, List.takeWhile_cons, List.takeWhile_cons, ih]

theorem dropWhile_isDigit_inert (text : CStr) :
    (text ++ behind).dropWhile isDigit = text.dropWhile isDigit ++ behind := by
  induction text with
  | nil =>
    cases behind with
    | nil => rfl
    | cons c cs => simp [(h.head c rfl).1]
  | cons c text ih =>
    rw [List.cons_append, List.dropWhile_cons, List.dropWhile_cons, ih]
    split_ifs <;> rfl

theorem strtol_inert (text : CStr) :
    strtol (text ++ behind) = (strtol text).map fun r => (r.1, r.2 ++ behind) := by
  rw [strtol_eq, strtol_eq text, List.dropWhile_append]
  cases hrest : text.dropWhile isSpace with
  | nil =>
    have hunread := h.unread
    rw [strtol_eq] at hunread
    rw [List.isEmpty_nil, if_pos rfl, hunread]
    rfl
  | cons c rest =>
    rw [List.isEmpty_cons, if_neg Bool.false_ne_true, splitSign_append (List.cons_ne_nil c rest),
      takeWhile_isDigit_inert h, dropWhile_isDigit_inert h]
    split_ifs <;> rfl

theorem atoi_inert (text : CStr) : atoi (text ++ behind) = atoi text := by
  rw [atoi, strtol_inert h, atoi]
  cases strtol text <;> rfl

theorem safeAtoi_inert (text : CStr) : safeAtoi (text ++ behind) = safeAtoi text := by
  rw [safeAtoi, strtol_inert h, safeAtoi]
  cases strtol text <;> rfl
end

/-- A number with a dot behind it, and what follows. -/
def scanField (text : CStr) : Option (ℤ × CStr) :=
  (strtol text).bind fun r => if r.2.head? = some '.' then some (r.1, r.2.tail) else none

theorem bind_scanField {β : Type} {next goes : ℤ × CStr → Option β}
    (hdot : ∀ n rest, next (n, '.' :: rest) = goes (n, rest)) (hend : ∀ n, next (n, []) = none)
    (hother : ∀ n c rest, c ≠ '.' → next (n, c :: rest) = none) (text : CStr) :
    (strtol text).bind next = (scanField text).bind goes := by
  rw [scanField, Option.bind_assoc]
  congr 1
  funext r
  obtain ⟨n, rest⟩ := r
  cases rest with
  | nil => simp [hend]
  | cons c rest =>
    by_cases hc : c = '.'
    · subst hc
      simp [hdot]
    · simp [hother n c rest hc, hc]

theorem scanQuad_eq (text : CStr) : scanQuad text =
    (scanField text).bind fun a => (scanField a.2).bind fun b => (scanField b.2).bind fun c =>
      (strtol c.2).map fun d => (narrow a.1, narrow b.1, narrow c.1, narrow d.1) := by
  unfold scanQuad
  change (strtol text).bind _ = _
  apply bind_scanField (fun a text => ?_) (fun _ => rfl) (fun _ c _ hc => by simp [hc])
  change (strtol text).bind _ = _
  apply bind_scanField (fun b text => ?_) (fun _ => rfl) (fun _ c _ hc => by simp [hc])
  change (strtol text).bind _ = _
  apply bind_scanField (fun c text => ?_) (fun _ => rfl) (fun _ c _ hc => by simp [hc])
  exact Option.map_eq_bind.symm

theorem scanField_inert {behind : CStr} (h : Inert behind) (text : CStr) :
    scanField (text ++ behind) = (scanField text).map fun r => (r.1, r.2 ++ behind) := by
  rw [scanField, strtol_inert h, Option.bind_map, scanField, Option.map_bind]
  congr 1
  funext r
  obtain ⟨n, rest⟩ := r
  cases rest with
  | nil =>
    cases behind with
    | nil => rfl
    | cons c cs => simp [(h.head c rfl).2]
  | cons c rest =>
    by_cases hc : c = '.'
    · simp [hc]
    · simp [hc]

theorem scanQuad_inert {behind : CStr} (h : Inert behind) (text : CStr) :
    scanQuad (text ++ behind) = scanQuad text := by
  simp only [scanQuad_eq, strtol_inert h, scanField_inert h, Option.bind_map, Option.map_map,
    Function.comp_def]

section
variable (text : CStr)

theorem atoi_beforeComma : atoi (beforeComma text) = atoi text := by
  rw [beforeComma, ← atoi_inert (inert_from_comma text), List.takeWhile_append_dropWhile]

theorem safeAtoi_beforeComma : safeAtoi (beforeComma text) = safeAtoi text := by
  rw [beforeComma, ← safeAtoi_inert (inert_from_comma text), List.takeWhile_append_dropWhile]

theorem scanQuad_beforeComma : scanQuad (beforeComma text) = scanQuad text := by
  rw [beforeComma, ← scanQuad_inert (inert_from_comma text), List.takeWhile_append_dropWhile]
end

end ProxyTun
