import ProxyTun.Core.Numerals

/-!
# Formatted scans

`sscanf` with a format of numbers, of characters that must be there and of white space, and the
texts that such a format reads.
-/
namespace ProxyTun

def isHexDigit (c : Char) : Bool :=
  isDigit c || ('a' ≤ c && c ≤ 'f') || ('A' ≤ c && c ≤ 'F')

def hexDigitValue (c : Char) : ℕ :=
  if isDigit c then c.toNat - 48 else if 'a' ≤ c then c.toNat - 87 else c.toNat - 55

def hexDigitsValue (ds : CStr) : ℕ := ds.foldl (fun n c => 16 * n + hexDigitValue c) 0

def splitMark : CStr → Bool × CStr
  | '0' :: 'x' :: rest => (true, rest)
  | '0' :: 'X' :: rest => (true, rest)
  | rest => (false, rest)

/-- The number that is read in base sixteen, before any range check, and what is left. -/
def strtolHex (s : CStr) : Option (ℤ × CStr) :=
  let signed := splitSign (s.dropWhile isSpace)
  let marked := splitMark signed.2
  if !marked.1 && (marked.2.takeWhile isHexDigit).isEmpty then none
  else some (signed.1.apply (hexDigitsValue (marked.2.takeWhile isHexDigit)),
    marked.2.dropWhile isHexDigit)

/-- The part of a format: white space, a character, or a number, which is stored or not. -/
inductive Directive where
  | blank
  | literal (c : Char)
  | dec (stored : Bool)
  | hex (stored : Bool)
  deriving DecidableEq, Repr

def storeNumber (stored : Bool) (n : ℤ) (rest : List ℤ) : List ℤ :=
  if stored then n :: rest else rest

/-- The numbers that `sscanf` stores, if it does not stop before the end of the format. -/
def scanFormat : List Directive → CStr → Option (List ℤ)
  | [], _ => some []
  | .blank :: ds, s => scanFormat ds (s.dropWhile isSpace)
  | .literal c :: ds, s => if s.head? = some c then scanFormat ds s.tail else none
  | .dec stored :: ds, s =>
    (strtol s).bind fun r => (scanFormat ds r.2).map (storeNumber stored r.1)
  | .hex stored :: ds, s =>
    (strtolHex s).bind fun r => (scanFormat ds r.2).map (storeNumber stored r.1)

/-- `(unsigned int)` of a number that was read with saturation to 64 bits. -/
def toUnsigned32 (n : ℤ) : BitVec 32 :=
  BitVec.ofInt 32 (if 18446744073709551615 < n ∨ n < -18446744073709551615 then
    18446744073709551615 else n)

/-- `(unsigned long)` of a number that was read with saturation to 64 bits. -/
def toUnsigned64 (n : ℤ) : BitVec 64 :=
  BitVec.ofInt 64 (if 18446744073709551615 < n ∨ n < -18446744073709551615 then
    18446744073709551615 else n)

/-- A number in base sixteen may go on with this. -/
def goesOnHex (c : Char) : Bool := isHexDigit c || c = 'x' || c = 'X'

/-- A text of digits in base sixteen. -/
structure IsHexNumber (text : CStr) : Prop where
  nonempty : text ≠ []
  digits : ∀ c ∈ text, isHexDigit c = true

/-- A piece of a text that a format is meant for. -/
inductive Piece where
  | gap (blanks : CStr)
  | mark (c : Char)
  | dec (spaces digits : CStr) (stored : Bool)
  | hex (digits : CStr) (stored : Bool)

namespace Piece

def directive : Piece → Directive
  | gap _ => .blank
  | mark c => .literal c
  | dec _ _ stored => .dec stored
  | hex _ stored => .hex stored

def text : Piece → CStr
  | gap blanks => blanks
  | mark c => [c]
  | dec spaces digits _ => spaces ++ digits
  | hex digits _ => digits

/-- The numbers that are stored from pieces. -/
def stored : List Piece → List ℤ
  | [] => []
  | dec _ digits keep :: pieces => storeNumber keep (digitsValue digits) (stored pieces)
  | hex digits keep :: pieces => storeNumber keep (hexDigitsValue digits) (stored pieces)
  | _ :: pieces => stored pieces

/-- Pieces, of which each ends where the next one starts, with a text behind them. -/
def Fits : List Piece → CStr → Prop
  | [], _ => True
  | gap blanks :: pieces, behind =>
    (∀ c ∈ blanks, isSpace c = true) ∧
      (∀ c ∈ (pieces.flatMap text ++ behind).head?, isSpace c = false) ∧ Fits pieces behind
  | mark _ :: pieces, behind => Fits pieces behind
  | dec spaces digits _ :: pieces, behind =>
    (∀ c ∈ spaces, isSpace c = true) ∧ IsNumber digits ∧
      (∀ c ∈ (pieces.flatMap text ++ behind).head?, isDigit c = false) ∧ Fits pieces behind
  | hex digits _ :: pieces, behind =>
    IsHexNumber digits ∧
      (∀ c ∈ (pieces.flatMap text ++ behind).head?, goesOnHex c = false) ∧ Fits pieces behind

end Piece

/-- A digit in base sixteen is no blank, no sign and no mark. -/
theorem ne_of_isHexDigit {c d : Char} (hc : isHexDigit c = true) (hd : isHexDigit d = false) :
    c ≠ d := by
  rintro rfl
  rw [hc] at hd
  cases hd

theorem isSpace_of_isHexDigit {c : Char} (h : isHexDigit c = true) : isSpace c = false := by
  cases hs : isSpace c with
  | false => rfl
  | true =>
    simp only [isSpace, Bool.or_eq_true, decide_eq_true_eq, or_assoc] at hs
    rcases hs with rfl | rfl | rfl | rfl | rfl | rfl <;> cases h

theorem splitMark_eq_self {text : CStr} (h : ∀ c ∈ text.tail.head?, c ≠ 'x' ∧ c ≠ 'X') :
    splitMark text = (false, text) := by
  cases text with
  | nil => rfl
  | cons c text =>
    cases text with
    | nil => simp [splitMark]
    | cons d text =>
      obtain ⟨hx, hX⟩ := h d rfl
      simp [splitMark, hx, hX]

namespace IsHexNumber
variable {text rest : CStr} (h : IsHexNumber text)
include h

/-- A number in base sixteen is read up to where it ends. -/
theorem strtolHex_append (hrest : ∀ c ∈ rest.head?, goesOnHex c = false) :
    strtolHex (text ++ rest) = some ((hexDigitsValue text : ℤ), rest) := by
  have hends : ∀ c ∈ rest.head?, isHexDigit c = false ∧ c ≠ 'x' ∧ c ≠ 'X' := fun c hc => by
    simpa [goesOnHex, and_assoc] using hrest c hc
  obtain ⟨htake, hdrop⟩ := span_append h.digits fun c hc => (hends c hc).1
  obtain ⟨c, cs, rfl⟩ := List.exists_cons_of_ne_nil h.nonempty
  have hc := h.digits c List.mem_cons_self
  have hspace : isSpace c = false := isSpace_of_isHexDigit hc
  have hminus : c ≠ '-' := ne_of_isHexDigit hc rfl
  have hplus : c ≠ '+' := ne_of_isHexDigit hc rfl
  have hmark : splitMark (c :: cs ++ rest) = (false, c :: cs ++ rest) := by
    apply splitMark_eq_self
    intro d hd
    cases cs with
    | nil => exact (hends d hd).2
    | cons e cs =>
      obtain rfl : e = d := Option.some.inj hd
      have he := h.digits e (by simp)
      exact ⟨ne_of_isHexDigit he rfl, ne_of_isHexDigit he rfl⟩
  have hsign : splitSign ((c :: cs ++ rest).dropWhile isSpace) = (.unsigned, c :: cs ++ rest) := by
    simp [hspace, splitSign, hminus, hplus]
  simp only [strtolHex, hsign, hmark, htake, hdrop]
  rfl

end IsHexNumber

theorem IsNumber.strtol_spaces {spaces text rest : CStr} (h : IsNumber text)
    (hspaces : ∀ c ∈ spaces, isSpace c = true) (hrest : ∀ c ∈ rest.head?, isDigit c = false) :
    strtol (spaces ++ text ++ rest) = some ((digitsValue text : ℤ), rest) := by
  have hread := Numeral.strtol_text ⟨spaces, .unsigned, text, rest, hspaces, h, hrest⟩
  rw [List.append_assoc]
  exact hread

theorem IsHexNumber.head_append {text : CStr} (h : IsHexNumber text) (rest : CStr) :
    ∀ c ∈ (text ++ rest).head?, isHexDigit c = true := by
  obtain ⟨d, ds, rfl⟩ := List.exists_cons_of_ne_nil h.nonempty
  intro c hc
  obtain rfl : d = c := Option.some.inj hc
  exact h.digits d List.mem_cons_self

theorem IsNumber.head_append {text : CStr} (h : IsNumber text) (rest : CStr) :
    ∀ c ∈ (text ++ rest).head?, isDigit c = true := by
  obtain ⟨d, ds, rfl, hd⟩ := h.exists_cons
  intro c hc
  obtain rfl : d = c := Option.some.inj hc
  exact hd

namespace Piece
variable {pieces : List Piece} {behind blanks digits : CStr} {keep : Bool}

theorem fits_gap_hex (hblanks : ∀ c ∈ blanks, isSpace c = true) (hdigits : IsHexNumber digits)
    (h : Fits (hex digits keep :: pieces) behind) :
    Fits (gap blanks :: hex digits keep :: pieces) behind := by
  refine ⟨hblanks, fun c hc => ?_, h⟩
  rw [List.flatMap_cons, List.append_assoc] at hc
  exact isSpace_of_isHexDigit (hdigits.head_append _ c hc)

theorem fits_gap_dec (hblanks : ∀ c ∈ blanks, isSpace c = true) (hdigits : IsNumber digits)
    (h : Fits (dec [] digits keep :: pieces) behind) :
    Fits (gap blanks :: dec [] digits keep :: pieces) behind := by
  refine ⟨hblanks, fun c hc => ?_, h⟩
  rw [List.flatMap_cons, List.append_assoc] at hc
  exact isSpace_of_isDigit (hdigits.head_append _ c hc)

theorem fits_hex {piece : Piece} {c : Char} {t : CStr} (hdigits : IsHexNumber digits)
    (hpiece : piece.text = c :: t) (hc : goesOnHex c = false)
    (h : Fits (piece :: pieces) behind) : Fits (hex digits keep :: piece :: pieces) behind := by
  refine ⟨hdigits, fun d hd => ?_, h⟩
  rw [List.flatMap_cons, hpiece] at hd
  obtain rfl : c = d := Option.some.inj hd
  exact hc

theorem fits_dec {piece : Piece} {spaces t : CStr} {c : Char}
    (hspaces : ∀ c ∈ spaces, isSpace c = true) (hdigits : IsNumber digits)
    (hpiece : piece.text = c :: t) (hc : isDigit c = false)
    (h : Fits (piece :: pieces) behind) :
    Fits (dec spaces digits keep :: piece :: pieces) behind := by
  refine ⟨hspaces, hdigits, fun d hd => ?_, h⟩
  rw [List.flatMap_cons, hpiece] at hd
  obtain rfl : c = d := Option.some.inj hd
  exact hc

end Piece

theorem scanFormat_pieces {pieces : List Piece} {behind : CStr} (h : Piece.Fits pieces behind) :
    scanFormat (pieces.map Piece.directive) (pieces.flatMap Piece.text ++ behind) =
      some (Piece.stored pieces) := by
  induction pieces with
  | nil => rfl
  | cons piece pieces ih =>
    rw [List.map_cons, List.flatMap_cons, List.append_assoc]
    cases piece with
    | gap blanks =>
      obtain ⟨hblanks, hends, hrest⟩ := h
      rw [Piece.directive, scanFormat, Piece.text, (span_append hblanks hends).2]
      exact ih hrest
    | mark c => exact (if_pos rfl).trans (ih h)
    | dec spaces digits keep =>
      obtain ⟨hspaces, hdigits, hends, hrest⟩ := h
      rw [Piece.directive, scanFormat, Piece.text, hdigits.strtol_spaces hspaces hends,
        Option.bind_some, ih hrest]
      rfl
    | hex digits keep =>
      obtain ⟨hdigits, hends, hrest⟩ := h
      rw [Piece.directive, scanFormat, Piece.text, hdigits.strtolHex_append hends,
        Option.bind_some, ih hrest]
      rfl

end ProxyTun
