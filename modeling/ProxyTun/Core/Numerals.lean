import ProxyTun.Core.CString

/-!
# The texts that `strtol` reads

`strtol` skips white space, takes a sign and reads digits. What it reads is fixed by the text, and
a terminating zero behind the digits makes no difference to the number.
-/
namespace ProxyTun

/-- What may stand before the digits. -/
inductive Sign where
  | unsigned
  | plus
  | minus
  deriving DecidableEq

namespace Sign

def text : Sign → CStr
  | unsigned => []
  | plus => ['+']
  | minus => ['-']

def apply : Sign → ℕ → ℤ
  | minus, n => -n
  | _, n => n

end Sign

/-- White space, a sign, digits, and a text that does not go on with a digit. -/
@[ext] structure Numeral where
  spaces : CStr
  sign : Sign
  digits : CStr
  tail : CStr
  spaces_isSpace : ∀ c ∈ spaces, isSpace c = true
  isNumber : IsNumber digits
  ends : ∀ c ∈ tail.head?, isDigit c = false

theorem isSpace_of_mem_nil : ∀ c ∈ ([] : CStr), isSpace c = true := by
  intro c hc
  cases hc

theorem isDigit_head_nil : ∀ c ∈ ([] : CStr).head?, isDigit c = false := by
  intro c hc
  cases hc

def splitSign : CStr → Sign × CStr
  | '-' :: rest => (.minus, rest)
  | '+' :: rest => (.plus, rest)
  | rest => (.unsigned, rest)

theorem splitSign_text (s : CStr) : (splitSign s).1.text ++ (splitSign s).2 = s := by
  unfold splitSign
  split <;> rfl

theorem splitSign_append {rest : CStr} (h : rest ≠ []) (behind : CStr) :
    splitSign (rest ++ behind) = ((splitSign rest).1, (splitSign rest).2 ++ behind) := by
  obtain ⟨c, rest, rfl⟩ := List.exists_cons_of_ne_nil h
  by_cases hminus : c = '-'
  · subst hminus
    rfl
  by_cases hplus : c = '+'
  · subst hplus
    rfl
  · simp [splitSign, hminus, hplus]

theorem strtol_eq (s : CStr) :
    strtol s =
      if (splitSign (s.dropWhile isSpace)).2.takeWhile isDigit = [] then none
      else some ((splitSign (s.dropWhile isSpace)).1.apply
          (digitsValue ((splitSign (s.dropWhile isSpace)).2.takeWhile isDigit)),
        (splitSign (s.dropWhile isSpace)).2.dropWhile isDigit) := by
  unfold strtol
  cases s.dropWhile isSpace with
  | nil => rfl
  | cons c rest =>
    by_cases hminus : c = '-'
    · subst hminus
      rfl
    by_cases hplus : c = '+'
    · subst hplus
      rfl
    · simp [splitSign, hminus, hplus, Sign.apply]

namespace Numeral

def text (a : Numeral) : CStr := a.spaces ++ (a.sign.text ++ (a.digits ++ a.tail))

def value (a : Numeral) : ℤ := a.sign.apply (digitsValue a.digits)

variable (a : Numeral)

theorem takeWhile_isSpace_text :
    a.text.takeWhile isSpace = a.spaces ∧
      a.text.dropWhile isSpace = a.sign.text ++ (a.digits ++ a.tail) := by
  apply span_append a.spaces_isSpace
  obtain ⟨d, ds, hdigits, hd⟩ := a.isNumber.exists_cons
  intro c hc
  cases hsign : a.sign with
  | unsigned =>
    simp only [hsign, Sign.text, hdigits, List.nil_append, List.cons_append, List.head?_cons,
      Option.mem_some_iff] at hc
    rw [← hc]
    exact isSpace_of_isDigit hd
  | plus =>
    simp only [hsign, Sign.text, List.cons_append, List.head?_cons, Option.mem_some_iff] at hc
    rw [← hc]
    rfl
  | minus =>
    simp only [hsign, Sign.text, List.cons_append, List.head?_cons, Option.mem_some_iff] at hc
    rw [← hc]
    rfl

theorem splitSign_digits :
    splitSign (a.sign.text ++ (a.digits ++ a.tail)) = (a.sign, a.digits ++ a.tail) := by
  cases hsign : a.sign with
  | unsigned =>
    obtain ⟨d, ds, hdigits, hd⟩ := a.isNumber.exists_cons
    have hminus : d ≠ '-' := ne_of_isDigit hd rfl
    have hplus : d ≠ '+' := ne_of_isDigit hd rfl
    simp [Sign.text, hdigits, splitSign, hminus, hplus]
  | plus => rfl
  | minus => rfl

theorem span_digits :
    (a.digits ++ a.tail).takeWhile isDigit = a.digits ∧
      (a.digits ++ a.tail).dropWhile isDigit = a.tail :=
  span_append a.isNumber.digits a.ends

theorem strtol_text : strtol a.text = some (a.value, a.tail) := by
  rw [strtol_eq, a.takeWhile_isSpace_text.2, a.splitSign_digits, a.span_digits.1,
    a.span_digits.2, if_neg a.isNumber.nonempty, value]

theorem text_injective : Function.Injective text := by
  intro a b h
  have hspaces := a.takeWhile_isSpace_text
  have hsign := a.splitSign_digits
  have hdigits := a.span_digits
  rw [h, b.takeWhile_isSpace_text.1, b.takeWhile_isSpace_text.2] at hspaces
  rw [← hspaces.2, b.splitSign_digits, Prod.mk.injEq] at hsign
  rw [← hsign.2, b.span_digits.1, b.span_digits.2] at hdigits
  ext1
  · exact hspaces.1.symm
  · exact hsign.1.symm
  · exact hdigits.1.symm
  · exact hdigits.2.symm

end Numeral

/-- What `strtol` reads is white space, a sign and digits. -/
theorem exists_numeral {s : CStr} (h : strtol s ≠ none) : ∃ a : Numeral, a.text = s := by
  rw [strtol_eq] at h
  have hdigits : (splitSign (s.dropWhile isSpace)).2.takeWhile isDigit ≠ [] := by
    intro hnil
    exact h (if_pos hnil)
  refine ⟨{ spaces := s.takeWhile isSpace
            sign := (splitSign (s.dropWhile isSpace)).1
            digits := (splitSign (s.dropWhile isSpace)).2.takeWhile isDigit
            tail := (splitSign (s.dropWhile isSpace)).2.dropWhile isDigit
            spaces_isSpace := fun c hc => List.mem_takeWhile_imp hc
            isNumber := ⟨hdigits, fun c hc => List.mem_takeWhile_imp hc⟩
            ends := ?_ }, ?_⟩
  · intro c hc
    have hhead := List.head?_dropWhile_not isDigit (splitSign (s.dropWhile isSpace)).2
    rw [Option.mem_def.mp hc] at hhead
    simpa using hhead
  · rw [Numeral.text, List.takeWhile_append_dropWhile, splitSign_text,
      List.takeWhile_append_dropWhile]

theorem strtol_number_eq_some_iff {s : CStr} {n : ℤ} :
    (strtol s).map Prod.fst = some n ↔ ∃ a : Numeral, a.text = s ∧ a.value = n := by
  constructor
  · intro h
    have hsome : strtol s ≠ none := by
      intro hnone
      rw [hnone] at h
      cases h
    obtain ⟨a, rfl⟩ := exists_numeral hsome
    rw [a.strtol_text] at h
    exact ⟨a, rfl, Option.some.inj h⟩
  · rintro ⟨a, rfl, rfl⟩
    rw [a.strtol_text]
    rfl

/-- The zero that ends a string does not change the number that starts it. -/
theorem strtol_number_takeWhile (s : CStr) :
    (strtol (s.takeWhile (· != '\x00'))).map Prod.fst = (strtol s).map Prod.fst := by
  ext n
  rw [strtol_number_eq_some_iff, strtol_number_eq_some_iff]
  constructor
  · rintro ⟨a, ha, hn⟩
    have hends : ∀ c ∈ (a.tail ++ s.dropWhile (· != '\x00')).head?, isDigit c = false := by
      intro c hc
      cases htail : a.tail with
      | nil =>
        have hhead := List.head?_dropWhile_not (· != '\x00') s
        rw [htail, List.nil_append] at hc
        rw [Option.mem_def.mp hc] at hhead
        have hzero : c = '\x00' := by simpa using hhead
        rw [hzero]
        rfl
      | cons d tail =>
        rw [htail] at hc
        exact a.ends c (by rw [htail]; exact hc)
    refine ⟨{ a with tail := a.tail ++ s.dropWhile (· != '\x00'), ends := hends }, ?_, hn⟩
    calc a.spaces ++ (a.sign.text ++ (a.digits ++ (a.tail ++ s.dropWhile (· != '\x00')))) =
          a.text ++ s.dropWhile (· != '\x00') := by simp [Numeral.text]
      _ = s := by rw [ha, List.takeWhile_append_dropWhile]
  · rintro ⟨a, rfl, hn⟩
    have hends : ∀ c ∈ (a.tail.takeWhile (· != '\x00')).head?, isDigit c = false := by
      intro c hc
      rw [List.head?_takeWhile] at hc
      exact a.ends c (Option.mem_filter_iff.mp hc).1
    refine ⟨{ a with tail := a.tail.takeWhile (· != '\x00'), ends := hends }, ?_, hn⟩
    have hspaces : '\x00' ∉ a.spaces := fun h => by cases a.spaces_isSpace _ h
    have hsign : '\x00' ∉ a.sign.text := by cases a.sign <;> decide
    have hdigits : '\x00' ∉ a.digits := a.isNumber.not_mem rfl
    rw [Numeral.text, Numeral.text, takeWhile_append_of_not_mem hspaces,
      takeWhile_append_of_not_mem hsign, takeWhile_append_of_not_mem hdigits]

section
variable {s : CStr} {n : ℤ}

theorem atoi_takeWhile_eq_iff (hn : n ≠ 0) :
    atoi (s.takeWhile (· != '\x00')) = n ↔
      ∃ a : Numeral, a.text = s ∧ clamp (-2147483648) 2147483647 a.value = n := by
  have hatoi (t : CStr) :
      atoi t = ((strtol t).map Prod.fst).elim 0 (clamp (-2147483648) 2147483647) := by
    unfold atoi
    cases strtol t <;> rfl
  rw [hatoi, strtol_number_takeWhile]
  constructor
  · intro h
    cases hnumber : (strtol s).map Prod.fst with
    | none =>
      rw [hnumber] at h
      exact absurd h.symm hn
    | some v =>
      obtain ⟨a, ha, rfl⟩ := strtol_number_eq_some_iff.mp hnumber
      rw [hnumber] at h
      exact ⟨a, ha, h⟩
  · rintro ⟨a, ha, hvalue⟩
    rw [strtol_number_eq_some_iff.mpr ⟨a, ha, rfl⟩]
    exact hvalue

theorem scanInt_takeWhile_eq_iff :
    scanInt (s.takeWhile (· != '\x00')) = some n ↔
      ∃ a : Numeral, a.text = s ∧ narrow a.value = n := by
  have hscan (t : CStr) : scanInt t = ((strtol t).map Prod.fst).map narrow := by
    rw [scanInt, Option.map_map]
    rfl
  rw [hscan, strtol_number_takeWhile, Option.map_eq_some_iff]
  constructor
  · rintro ⟨v, hnumber, rfl⟩
    obtain ⟨a, ha, rfl⟩ := strtol_number_eq_some_iff.mp hnumber
    exact ⟨a, ha, rfl⟩
  · rintro ⟨a, ha, hvalue⟩
    exact ⟨a.value, strtol_number_eq_some_iff.mpr ⟨a, ha, rfl⟩, hvalue⟩

end

theorem digitsValue_lt {digits : CStr} (h : ∀ c ∈ digits, isDigit c = true) :
    digitsValue digits < 10 ^ digits.length := by
  induction digits using List.reverseRecOn with
  | nil => simp [digitsValue]
  | append_singleton digits c ih =>
    have hbefore := ih fun d hd => h d (by simp [hd])
    obtain ⟨-, hc⟩ := toNat_of_isDigit (h c (by simp))
    have hstep : digitsValue (digits ++ [c]) = 10 * digitsValue digits + (c.toNat - 48) := by
      simp [digitsValue]
    rw [hstep, List.length_append, List.length_singleton, pow_succ]
    omega

end ProxyTun
