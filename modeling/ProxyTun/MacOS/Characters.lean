import Mathlib.Data.List.Infix
import ProxyTun.Core.CString

/-!
# The characters of a Swift string

Swift counts and searches a string by characters, which are its extended grapheme clusters. The
rules for clusters come with the system. Here they are a parameter, and what they say about ASCII
is that its characters are single, except for a carriage return with the line feed behind it.
-/
namespace ProxyTun.MacOS

/-- The breaks of a string into characters. -/
structure Characters where
  characters : CStr → List CStr
  flatten_characters : ∀ text, (characters text).flatten = text
  ne_nil_of_mem : ∀ text, ∀ c ∈ characters text, c ≠ []
  characters_append : ∀ (a b : CStr) (c d : Char), c.toNat < 128 → d.toNat < 128 →
    ¬ (c = '\r' ∧ d = '\n') →
    characters (a ++ [c] ++ d :: b) = characters (a ++ [c]) ++ characters (d :: b)
  characters_crlf : ∀ a b, characters (a ++ '\r' :: '\n' :: b) =
    characters a ++ ['\r', '\n'] :: characters b

/-- The text is ASCII, and no carriage return stands before a line feed. -/
structure IsPlain (text : CStr) : Prop where
  ascii : ∀ c ∈ text, c.toNat < 128
  noCrlf : ¬ ['\r', '\n'] <:+: text

theorem IsPlain.of_cons {c : Char} {text : CStr} (h : IsPlain (c :: text)) : IsPlain text where
  ascii := fun d hd => h.ascii d (List.mem_cons_of_mem _ hd)
  noCrlf := fun hcrlf => h.noCrlf (List.infix_cons hcrlf)

theorem isPlain_of_isNumber {text : CStr} (h : IsNumber text) : IsPlain text where
  ascii := fun c hc => by
    have hdigit := toNat_of_isDigit (h.digits c hc)
    omega
  noCrlf := fun hcrlf => h.not_mem rfl (hcrlf.subset List.mem_cons_self)

namespace Characters
variable (sys : Characters)

/-- `count`: the number of characters. -/
def count (text : CStr) : ℕ := (sys.characters text).length

/-- `contains`, for a part whose characters have no other spelling. -/
def contains (text part : CStr) : Bool := decide (sys.characters part <:+: sys.characters text)

theorem characters_nil : sys.characters [] = [] := by
  rw [List.eq_nil_iff_forall_not_mem]
  intro c hc
  have hflat := sys.flatten_characters []
  rw [List.flatten_eq_nil_iff] at hflat
  exact sys.ne_nil_of_mem [] c hc (hflat c hc)

theorem exists_characters_cons (c : Char) (text : CStr) :
    ∃ first rest, sys.characters (c :: text) = (c :: first) :: rest := by
  have hflat := sys.flatten_characters (c :: text)
  have hne := sys.ne_nil_of_mem (c :: text)
  generalize sys.characters (c :: text) = parts at hflat hne
  cases parts with
  | nil => cases hflat
  | cons first rest =>
    obtain ⟨d, ds, rfl⟩ := List.exists_cons_of_ne_nil (hne first List.mem_cons_self)
    rw [List.flatten_cons, List.cons_append, List.cons.injEq] at hflat
    exact ⟨ds, rest, by rw [hflat.1]⟩

theorem characters_singleton (c : Char) : sys.characters [c] = [[c]] := by
  obtain ⟨first, rest, hparts⟩ := sys.exists_characters_cons c []
  have hflat := sys.flatten_characters [c]
  rw [hparts, List.flatten_cons, List.cons_append, List.cons.injEq,
    List.append_eq_nil_iff, List.flatten_eq_nil_iff] at hflat
  obtain ⟨-, rfl, hrest⟩ := hflat
  cases rest with
  | nil => exact hparts
  | cons second rest =>
    have hmem : second ∈ sys.characters [c] := by
      rw [hparts]
      simp
    exact absurd (hrest second List.mem_cons_self) (sys.ne_nil_of_mem [c] second hmem)

theorem characters_of_isPlain {text : CStr} (h : IsPlain text) :
    sys.characters text = text.map fun c => [c] := by
  induction text with
  | nil => exact sys.characters_nil
  | cons c text ih =>
    cases text with
    | nil => exact sys.characters_singleton c
    | cons d text =>
      have hcrlf : ¬ (c = '\r' ∧ d = '\n') := by
        rintro ⟨rfl, rfl⟩
        exact h.noCrlf ⟨[], text, rfl⟩
      have hsplit := sys.characters_append [] text c d (h.ascii c (by simp)) (h.ascii d (by simp))
        hcrlf
      rw [List.nil_append, sys.characters_singleton, ih h.of_cons] at hsplit
      exact hsplit

/-- A carriage return with the line feed behind it is one character. -/
theorem crlf_mem_characters {text : CStr} (h : ['\r', '\n'] <:+: text) :
    ['\r', '\n'] ∈ sys.characters text := by
  obtain ⟨a, b, rfl⟩ := h
  have hsplit := sys.characters_crlf a b
  rw [List.append_assoc, List.cons_append, List.singleton_append, hsplit]
  exact List.mem_append_right _ List.mem_cons_self

/-- A number is a run of characters wherever ASCII characters stand around it. -/
theorem contains_of_isNumber {number : CStr} (h : IsNumber number) {c : Char}
    (hc : c.toNat < 128) (front : CStr) {behind : CStr}
    (hbehind : ∀ d ∈ behind.head?, d.toNat < 128) :
    sys.contains (front ++ [c] ++ (number ++ behind)) number = true := by
  have hfirst : sys.characters (front ++ [c] ++ (number ++ behind)) =
      sys.characters (front ++ [c]) ++ sys.characters (number ++ behind) := by
    obtain ⟨d, digits, rfl, hd⟩ := h.exists_cons
    have hdigit := toNat_of_isDigit hd
    apply sys.characters_append front (digits ++ behind) c d hc (by omega)
    rintro ⟨-, rfl⟩
    cases hd
  have hlast : sys.characters (number ++ behind) =
      sys.characters number ++ sys.characters behind := by
    cases behind with
    | nil => rw [List.append_nil, characters_nil, List.append_nil]
    | cons e behind =>
      obtain ⟨digits, d, rfl⟩ := (List.eq_nil_or_concat' number).resolve_left h.nonempty
      have hd := h.digits d (by simp)
      have hdigit := toNat_of_isDigit hd
      apply sys.characters_append digits behind d e (by omega) (hbehind e rfl)
      rintro ⟨rfl, -⟩
      cases hd
  rw [contains, decide_eq_true_eq, hfirst, hlast]
  exact ⟨sys.characters (front ++ [c]), sys.characters behind, by rw [List.append_assoc]⟩

end Characters

/-- The breaks of a text in which no characters combine. -/
def breakCharacters : CStr → List CStr
  | [] => []
  | [c] => [[c]]
  | c :: d :: text =>
    if c = '\r' ∧ d = '\n' then [c, d] :: breakCharacters text
    else [c] :: breakCharacters (d :: text)

theorem breakCharacters_append {c d : Char} (h : ¬ (c = '\r' ∧ d = '\n')) (b : CStr) :
    ∀ a, breakCharacters (a ++ c :: d :: b) =
      breakCharacters (a ++ [c]) ++ breakCharacters (d :: b)
  | [] => by simp [breakCharacters, h]
  | [e] => by
    by_cases hcrlf : e = '\r' ∧ c = '\n'
    · simp [breakCharacters, hcrlf]
    · simp [breakCharacters, h, hcrlf]
  | e :: f :: a => by
    by_cases hcrlf : e = '\r' ∧ f = '\n'
    · simp [breakCharacters, hcrlf, breakCharacters_append h b a]
    · have hrest := breakCharacters_append h b (f :: a)
      simp only [List.cons_append] at hrest
      simp [breakCharacters, hcrlf, hrest]

theorem breakCharacters_crlf (b : CStr) :
    ∀ a, breakCharacters (a ++ '\r' :: '\n' :: b) =
      breakCharacters a ++ ['\r', '\n'] :: breakCharacters b
  | [] => by simp [breakCharacters]
  | [e] => by simp [breakCharacters]
  | e :: f :: a => by
    by_cases hcrlf : e = '\r' ∧ f = '\n'
    · simp [breakCharacters, hcrlf, breakCharacters_crlf b a]
    · have hrest := breakCharacters_crlf b (f :: a)
      simp only [List.cons_append] at hrest
      simp [breakCharacters, hcrlf, hrest]

/-- A system that knows no combining characters. -/
def simpleCharacters : Characters where
  characters := breakCharacters
  flatten_characters := fun text => by
    fun_induction breakCharacters text with
    | case1 => rfl
    | case2 c => rfl
    | case3 c d text h ih => simp [ih]
    | case4 c d text h ih => simp [ih]
  ne_nil_of_mem := fun text => by
    fun_induction breakCharacters text with
    | case1 => simp
    | case2 c => simp
    | case3 c d text h ih => simpa using ih
    | case4 c d text h ih => simpa using ih
  characters_append := fun a b c d _ _ h => by
    rw [← List.append_cons]
    exact breakCharacters_append h b a
  characters_crlf := fun a b => breakCharacters_crlf b a

end ProxyTun.MacOS
