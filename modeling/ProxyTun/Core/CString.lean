import Mathlib.Data.List.TakeWhile
import ProxyTun.Core.Types

/-!
# The string functions of the C library

A string is the list of its characters before the terminating zero.
-/
namespace ProxyTun

def isSpace (c : Char) : Bool :=
  c = ' ' || c = '\t' || c = '\n' || c = '\x0b' || c = '\x0c' || c = '\r'

def isDigit (c : Char) : Bool := '0' ≤ c && c ≤ '9'

def digitsValue (ds : CStr) : ℕ := ds.foldl (fun n c => 10 * n + (c.toNat - 48)) 0

/-- The number `strtol` reads in base ten, before any range check, and what it leaves. -/
def strtol (s : CStr) : Option (ℤ × CStr) :=
  let s := s.dropWhile isSpace
  let (negative, s) := match s with
    | '-' :: t => (true, t)
    | '+' :: t => (false, t)
    | t => (false, t)
  let ds := s.takeWhile isDigit
  if ds = [] then none
  else some (if negative then -(digitsValue ds : ℤ) else digitsValue ds, s.dropWhile isDigit)

def clamp (lo hi n : ℤ) : ℤ := max lo (min hi n)

/-- Conversion to a signed 32-bit integer. -/
def toInt32 (n : ℤ) : ℤ := (BitVec.ofInt 32 n).toInt

/-- `atoi` of the Windows runtime, which saturates. -/
def atoi (s : CStr) : ℤ :=
  match strtol s with
  | some (n, _) => clamp (-2147483648) 2147483647 n
  | none => 0

/-- A number that was read with saturation to 64 bits and cut down to 32 bits. -/
def narrow (n : ℤ) : ℤ := toInt32 (clamp (-9223372036854775808) 9223372036854775807 n)

/-- `safe_atoi`: a 64-bit `strtol` cut down to 32 bits. -/
def safeAtoi (s : CStr) : ℤ :=
  match strtol s with
  | some (n, _) => narrow n
  | none => 0

/-- The number that `sscanf(s, "%d", ...)` stores, if it finds one. -/
def scanInt (s : CStr) : Option ℤ := (strtol s).map fun r => narrow r.1

def scanQuad (s : CStr) : Option (ℤ × ℤ × ℤ × ℤ) := do
  let (a, s) ← strtol s
  let '.' :: s := s | none
  let (b, s) ← strtol s
  let '.' :: s := s | none
  let (c, s) ← strtol s
  let '.' :: s := s | none
  let (d, _) ← strtol s
  some (narrow a, narrow b, narrow c, narrow d)

/-- The tokens `strtok` returns: maximal runs free of delimiters. -/
def strtok (delimiters : List Char) (s : CStr) : List CStr :=
  (s.splitOnP fun c => delimiters.contains c).filter fun t => !t.isEmpty

def isBlank (c : Char) : Bool := c = ' ' || c = '\t'

def skipWhitespace (s : CStr) : CStr := s.dropWhile isBlank

theorem skipWhitespace_eq_self {text : CStr} (h : ∀ c ∈ text, isBlank c = false) :
    skipWhitespace text = text := by
  cases text with
  | nil => rfl
  | cons c cs => simp [skipWhitespace, h c List.mem_cons_self]

def lower (s : CStr) : CStr := s.map Char.toLower

def sameIgnoringCase (s t : CStr) : Bool := lower s = lower t

def samePrefixIgnoringCase (s t : CStr) (n : ℕ) : Bool := (lower s).take n = (lower t).take n

/-- The part of a string after its last occurrence of a character, or the whole string. -/
def afterLast (c : Char) (s : CStr) : CStr := (s.reverse.takeWhile fun d => d != c).reverse

def decimal (n : ℕ) : CStr := (Nat.repr n).toList

def signedDecimal (n : ℤ) : CStr := (Int.repr n).toList

def bytesOf (s : CStr) : List Byte := s.map fun c => BitVec.ofNat 8 c.toNat

/-- The bytes as characters. -/
def textOf (data : List Byte) : CStr := data.map fun b => Char.ofNat b.toNat

theorem length_bytesOf (text : CStr) : (bytesOf text).length = text.length := List.length_map _

theorem bytesOf_append (text text' : CStr) :
    bytesOf (text ++ text') = bytesOf text ++ bytesOf text' :=
  List.map_append

def cString (data : List Byte) : CStr :=
  (data.takeWhile fun b => b ≠ 0).map fun b => Char.ofNat b.toNat

def formatIpAddress (ip : Ip) : CStr :=
  ['.'].intercalate <| (List.range 4).map fun i => decimal (octet ip i).toNat

section
variable {α : Type*} [DecidableEq α] {c : α} {before : List α} (h : c ∉ before)
include h

theorem bne_of_not_mem : ∀ d ∈ before, (d != c) = true := by
  intro d hd
  simpa using ne_of_mem_of_not_mem hd h

theorem takeWhile_ne_eq_self : before.takeWhile (· != c) = before :=
  List.takeWhile_eq_self_iff.mpr (bne_of_not_mem h)

theorem dropWhile_ne_eq_nil : before.dropWhile (· != c) = [] :=
  List.dropWhile_eq_nil_iff.mpr (bne_of_not_mem h)

theorem takeWhile_append_of_not_mem (behind : List α) :
    (before ++ behind).takeWhile (· != c) = before ++ behind.takeWhile (· != c) :=
  List.takeWhile_append_of_pos (bne_of_not_mem h)

/-- A text is cut at the first occurrence of a character. -/
theorem takeWhile_ne_append (behind : List α) :
    (before ++ c :: behind).takeWhile (· != c) = before := by
  rw [takeWhile_append_of_not_mem h, List.takeWhile_cons_of_neg (by simp), List.append_nil]

theorem dropWhile_ne_append (behind : List α) :
    (before ++ c :: behind).dropWhile (· != c) = c :: behind := by
  rw [List.dropWhile_append_of_pos (bne_of_not_mem h), List.dropWhile_cons_of_neg (by simp)]

end

theorem afterLast_of_not_mem {c : Char} {before : CStr} (h : c ∉ before) :
    afterLast c before = before := by
  have hreverse : c ∉ before.reverse := by
    rwa [List.mem_reverse]
  rw [afterLast, takeWhile_ne_eq_self hreverse, List.reverse_reverse]

theorem lower_eq_self {text : CStr} (h : ∀ c ∈ text, c.toLower = c) : lower text = text := by
  rw [lower, List.map_congr_left h, List.map_id']

theorem ends_ne_of_not_mem {c : Char} {text : CStr} (h : c ∉ text) :
    text ≠ [c] ∧ text.getLast? ≠ some c ∧ text.head? ≠ some c := by
  refine ⟨?_, fun hlast => h (List.mem_of_getLast? hlast), fun hhead => h (List.mem_of_head? hhead)⟩
  rintro rfl
  exact h List.mem_cons_self

theorem ne_of_isDigit {c d : Char} (hc : isDigit c = true) (hd : isDigit d = false) : c ≠ d := by
  rintro rfl
  rw [hc] at hd
  cases hd

theorem toNat_of_isDigit {c : Char} (h : isDigit c = true) : 48 ≤ c.toNat ∧ c.toNat ≤ 57 := by
  simp only [isDigit, Bool.and_eq_true, decide_eq_true_eq, Char.le_def] at h
  exact ⟨h.1, h.2⟩

theorem isSpace_of_isDigit {c : Char} (h : isDigit c = true) : isSpace c = false := by
  cases hs : isSpace c with
  | false => rfl
  | true =>
    simp only [isSpace, Bool.or_eq_true, decide_eq_true_eq, or_assoc] at hs
    rcases hs with rfl | rfl | rfl | rfl | rfl | rfl <;> cases h

theorem span_append {p : Char → Bool} {run rest : CStr} (hrun : ∀ c ∈ run, p c = true)
    (hrest : ∀ c ∈ rest.head?, p c = false) :
    (run ++ rest).takeWhile p = run ∧ (run ++ rest).dropWhile p = rest := by
  rw [List.takeWhile_append_of_pos hrun, List.dropWhile_append_of_pos hrun]
  cases rest with
  | nil => exact ⟨List.append_nil run, rfl⟩
  | cons c rest => simp [hrest c rfl]

/-- The text is a number in decimal digits. -/
structure IsNumber (text : CStr) : Prop where
  nonempty : text ≠ []
  digits : ∀ c ∈ text, isDigit c = true

theorem isNumber_200 : IsNumber "200".toList := ⟨by decide, List.all_eq_true.mp (by decide)⟩

theorem digitsValue_decimal (n : ℕ) : digitsValue (decimal n) = n := by
  rw [decimal, Nat.toList_repr]
  exact Nat.ofDigitChars_ten_toDigits

theorem isNumber_decimal (n : ℕ) : IsNumber (decimal n) := by
  rw [decimal, Nat.toList_repr]
  refine ⟨Nat.toDigits_ne_nil, ?_⟩
  intro c hc
  have hdigit := Nat.isDigit_of_mem_toDigits (by omega) (by omega) hc
  simpa [isDigit, Char.isDigit, Char.le_def] using hdigit

theorem narrow_natCast {n : ℕ} (h : n < 4294967296) : narrow n = (BitVec.ofNat 32 n).toInt := by
  have hclamp : clamp (-9223372036854775808) 9223372036854775807 n = n := by
    unfold clamp
    omega
  rw [narrow, hclamp, toInt32, BitVec.ofInt_natCast]

theorem narrow_of_small {n : ℤ} (hlow : -2147483648 ≤ n) (hhigh : n < 2147483648) :
    narrow n = n := by
  have hclamp : clamp (-9223372036854775808) 9223372036854775807 n = n := by
    unfold clamp
    omega
  rw [narrow, hclamp, toInt32, BitVec.toInt_ofInt]
  exact Int.bmod_eq_of_le (by omega) (by omega)

theorem narrow_eq_self {n : ℕ} (h : n < 2147483648) : narrow n = n :=
  narrow_of_small (by omega) (by omega)

namespace IsNumber
variable {text : CStr} (h : IsNumber text)
include h

theorem not_mem {c : Char} (hc : isDigit c = false) : c ∉ text := by
  intro hmem
  exact ne_of_isDigit (h.digits c hmem) hc rfl

theorem exists_cons : ∃ c cs, text = c :: cs ∧ isDigit c = true := by
  cases text with
  | nil => exact absurd rfl h.nonempty
  | cons c cs => exact ⟨c, cs, rfl, h.digits c List.mem_cons_self⟩

theorem strtol_append {rest : CStr} (hrest : ∀ c ∈ rest.head?, isDigit c = false) :
    strtol (text ++ rest) = some ((digitsValue text : ℤ), rest) := by
  obtain ⟨htake, hdrop⟩ := span_append h.digits hrest
  obtain ⟨c, cs, rfl, hc⟩ := h.exists_cons
  have hspace : isSpace c = false := isSpace_of_isDigit hc
  have hminus : c ≠ '-' := ne_of_isDigit hc rfl
  have hplus : c ≠ '+' := ne_of_isDigit hc rfl
  rw [List.cons_append] at htake hdrop ⊢
  simp [strtol, hspace, htake, hdrop, hminus, hplus]

theorem strtol_eq : strtol text = some ((digitsValue text : ℤ), []) := by
  rw [← List.append_nil text, h.strtol_append (fun c hc => by cases hc), List.append_nil]

theorem atoi_eq_iff {n : ℕ} (hn : n < 2147483647) : atoi text = n ↔ digitsValue text = n := by
  simp only [atoi, h.strtol_eq, clamp]
  omega

theorem atoi_append {rest : CStr} (hrest : ∀ c ∈ rest.head?, isDigit c = false)
    (hsmall : digitsValue text < 2147483648) : atoi (text ++ rest) = digitsValue text := by
  simp only [atoi, h.strtol_append hrest, clamp]
  omega

theorem safeAtoi_append {rest : CStr} (hrest : ∀ c ∈ rest.head?, isDigit c = false)
    (hsmall : digitsValue text < 2147483648) : safeAtoi (text ++ rest) = digitsValue text := by
  rw [safeAtoi, h.strtol_append hrest]
  exact narrow_eq_self hsmall

end IsNumber

end ProxyTun
