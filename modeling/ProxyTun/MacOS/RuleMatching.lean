import ProxyTun.Core.CString
import ProxyTun.MacOS.StoredRules

/-!
# The extension's rule matching

A rule's lists are split at their delimiters, and an item that is blank after trimming is an
empty pattern, which matches everything. Texts are lists of Unicode scalars; the case mapping
of `lowercased()` is a parameter.

Swift compares strings by their characters, the grapheme clusters of the scalars, which are equal if
they are canonically equivalent. The matcher of process patterns is written for any type of
characters. The list matchers use it for texts in which every scalar is a character.
-/
namespace ProxyTun.MacOS

/-- The characters that a process pattern is searched for. -/
class PatternCharacters (χ : Type) where
  starChar : χ
  slashChar : χ
  backslashChar : χ

instance : PatternCharacters Char := ⟨'*', '/', '\\'⟩

def isWhitespace (c : Char) : Bool :=
  let n := c.toNat
  n = 0x9 || n = 0x20 || n = 0xA0 || n = 0x1680 || (0x2000 ≤ n && n ≤ 0x200A) || n = 0x202F ||
    n = 0x205F || n = 0x3000

def isWhitespaceOrNewline (c : Char) : Bool :=
  let n := c.toNat
  isWhitespace c || (0xA ≤ n && n ≤ 0xD) || n = 0x85 || n = 0x2028 || n = 0x2029

def trimmingCharacters (set : Char → Bool) (text : CStr) : CStr :=
  ((text.dropWhile set).reverse.dropWhile set).reverse

/-- `components(separatedBy:)`, which keeps empty components. -/
def components (delimiters : List Char) (text : CStr) : List CStr :=
  text.splitOnP fun c => delimiters.contains c

/-- `lastPathComponent` of a path. -/
def lastPathComponent (path : CStr) : CStr :=
  let path' := (path.reverse.dropWhile (· = '/')).reverse
  if path' = [] then path.take 1 else afterLast '/' path'

def digitsNumber (digits : CStr) : Option ℕ :=
  if digits ≠ [] ∧ digits.all isDigit then some (digitsValue digits) else none

/-- `UInt8(text)` and `UInt16(text)`, which take a sign before the digits. -/
def unsignedInteger (width : ℕ) (text : CStr) : Option ℕ :=
  match text with
  | '+' :: digits => (digitsNumber digits).filter fun n => n < 2 ^ width
  | '-' :: digits => (digitsNumber digits).filter fun n => n = 0
  | digits => (digitsNumber digits).filter fun n => n < 2 ^ width

def ipToInteger (ipString : CStr) : Option ℕ :=
  let octets := components ['.'] ipString
  if octets.length ≠ 4 then none
  else octets.foldlM (fun result octet => (unsignedInteger 8 octet).map (result * 256 + ·)) 0

/-- Octets and the labels of host names are compared letter by letter. Both are ASCII, and for such
texts that is what `==` of Swift does. -/
def matchIPPattern (pattern ipString : CStr) : Bool :=
  if pattern = [] || pattern = ['*'] then true
  else if pattern.contains '-' then
    match components ['-'] pattern with
    | [first, last] =>
      match ipToInteger (trimmingCharacters isWhitespace first),
        ipToInteger (trimmingCharacters isWhitespace last), ipToInteger ipString with
      | some start, some stop, some target => start ≤ target && target ≤ stop
      | _, _, _ => false
    | _ => false
  else
    let patternOctets := components ['.'] pattern
    let ipOctets := components ['.'] ipString
    if patternOctets.length ≠ 4 || ipOctets.length ≠ 4 then false
    else (patternOctets.zip ipOctets).all fun (p, o) => p = ['*'] || p = o

def matchPortPattern (pattern : CStr) (port : Port) : Bool :=
  if pattern = [] || pattern = ['*'] then true
  else if pattern.contains '-' then
    match unsignedInteger 16 (pattern.takeWhile (· ≠ '-')),
      unsignedInteger 16 ((pattern.dropWhile (· ≠ '-')).drop 1) with
    | some start, some stop => start ≤ port.toNat && port.toNat ≤ stop
    | _, _ => false
  else
    match unsignedInteger 16 pattern with
    | some patternPort => port.toNat = patternPort
    | none => false

/-- The loop of the three list matchers over the trimmed items. -/
def matchList (delimiters : List Char) (accepts : CStr → Bool) (list : CStr) : Bool :=
  if list = [] || list = ['*'] then true
  else (components delimiters list).any fun pattern =>
    accepts (trimmingCharacters isWhitespaceOrNewline pattern)

def matchIPList (ipList ipString : CStr) : Bool :=
  matchList [';'] (fun trimmed => matchIPPattern trimmed ipString) ipList

def matchPortList (portList : CStr) (port : Port) : Bool :=
  matchList [',', ';'] (fun trimmed => matchPortPattern trimmed port) portList

section
variable {χ : Type} [DecidableEq χ] [PatternCharacters χ]
open PatternCharacters

def matchProcessPattern (lowercased : List χ → List χ) (pattern processPath filename : List χ) :
    Bool :=
  if pattern = [] || pattern = [starChar] then true
  else
    let isFullPathPattern := pattern.contains slashChar || pattern.contains backslashChar
    let matchTarget := if isFullPathPattern then processPath else filename
    if pattern.getLast? = some starChar then
      (lowercased pattern.dropLast).isPrefixOf (lowercased matchTarget)
    else if pattern.head? = some starChar then
      (lowercased (pattern.drop 1)).isSuffixOf (lowercased matchTarget)
    else if pattern.contains starChar then
      (lowercased (pattern.takeWhile (· != starChar))).isPrefixOf (lowercased matchTarget) &&
        (lowercased ((pattern.dropWhile (· != starChar)).drop 1)).isSuffixOf
          (lowercased matchTarget)
    else lowercased matchTarget = lowercased pattern

end

section
variable (lowercased : CStr → CStr)

def matchProcessList (processList processPath : CStr) : Bool :=
  let filename := lastPathComponent processPath
  matchList [',', ';'] (fun trimmed => matchProcessPattern lowercased trimmed processPath filename)
    processList

/-- The three list fields of a rule. -/
inductive ListField where
  | processNames
  | targetHosts
  | targetPorts
  deriving DecidableEq, Repr

/-- What the list fields of a rule are held against. -/
structure Target where
  processPath : CStr
  ipString : CStr
  port : Port
  deriving DecidableEq, Repr

def ListField.delimiters : ListField → List Char
  | .processNames => [',', ';']
  | .targetHosts => [';']
  | .targetPorts => [',', ';']

/-- The list matcher of a field. -/
def ListField.matchesList (field : ListField) (list : CStr) (target : Target) : Bool :=
  match field with
  | .processNames => matchProcessList lowercased list target.processPath
  | .targetHosts => matchIPList list target.ipString
  | .targetPorts => matchPortList list target.port

/-- The pattern matcher of a field. -/
def ListField.matchesPattern (field : ListField) (pattern : CStr) (target : Target) : Bool :=
  match field with
  | .processNames => matchProcessPattern lowercased pattern target.processPath
      (lastPathComponent target.processPath)
  | .targetHosts => matchIPPattern pattern target.ipString
  | .targetPorts => matchPortPattern pattern target.port

end

/-- The trimmed items of a list. -/
def ListField.items (field : ListField) (list : CStr) : List CStr :=
  (components field.delimiters list).map (trimmingCharacters isWhitespaceOrNewline)

def ListField.nonBlankItems (field : ListField) (list : CStr) : List CStr :=
  (field.items list).filter (· ≠ [])

def ListField.HasBlankItem (field : ListField) (list : CStr) : Prop := [] ∈ field.items list

/-- One list has the other's items, with empty or blank items added anywhere. -/
def ListField.AddsBlankItems (field : ListField) (list list' : CStr) : Prop :=
  (components field.delimiters list).Sublist (components field.delimiters list') ∧
    field.nonBlankItems list' = field.nonBlankItems list

theorem mem_nonBlankItems {field : ListField} {list item : CStr} :
    item ∈ field.nonBlankItems list ↔ item ∈ field.items list ∧ item ≠ [] := by
  simp [ListField.nonBlankItems]

/-- The shortcuts of the loop for an empty list and a star agree with the loop. -/
theorem matchList_eq_any (delimiters : List Char) (accepts : CStr → Bool)
    (hstar : '*' ∉ delimiters) (hempty : accepts [] = true) (hall : accepts ['*'] = true)
    (list : CStr) :
    matchList delimiters accepts list =
      ((components delimiters list).map (trimmingCharacters isWhitespaceOrNewline)).any
        accepts := by
  unfold matchList
  rw [List.any_map]
  by_cases h : list = [] ∨ list = ['*']
  · rw [if_pos (by simpa using h)]
    symm
    rcases h with rfl | rfl
    · have ht : trimmingCharacters isWhitespaceOrNewline [] = [] := rfl
      simp [components, ht, hempty]
    · have hc : components delimiters ['*'] = [['*']] :=
        List.splitOnP_eq_singleton (by simpa using hstar)
      have ht : trimmingCharacters isWhitespaceOrNewline ['*'] = ['*'] := by decide
      simp [hc, ht, hall]
  · rw [if_neg (by simpa using h)]
    rfl

section
variable (lowercased : CStr → CStr)

@[simp] theorem matchesPattern_nil (field : ListField) (target : Target) :
    field.matchesPattern lowercased [] target = true := by
  cases field <;> rfl

@[simp] theorem matchesPattern_star (field : ListField) (target : Target) :
    field.matchesPattern lowercased ['*'] target = true := by
  cases field <;> rfl

theorem matchesList_eq_matchList (field : ListField) (list : CStr) (target : Target) :
    field.matchesList lowercased list target =
      matchList field.delimiters (fun item => field.matchesPattern lowercased item target)
        list := by
  cases field <;> rfl

theorem matchesList_eq_any (field : ListField) (list : CStr) (target : Target) :
    field.matchesList lowercased list target =
      (field.items list).any fun item => field.matchesPattern lowercased item target := by
  have hstar : '*' ∉ field.delimiters := by cases field <;> decide
  rw [matchesList_eq_matchList]
  exact matchList_eq_any field.delimiters _ hstar (matchesPattern_nil lowercased field target)
    (matchesPattern_star lowercased field target) list

theorem matchesList_iff (field : ListField) (list : CStr) (target : Target) :
    field.matchesList lowercased list target = true ↔
      field.HasBlankItem list ∨
        ∃ item ∈ field.nonBlankItems list, field.matchesPattern lowercased item target = true := by
  rw [matchesList_eq_any, List.any_eq_true]
  constructor
  · rintro ⟨item, hitem, hmatch⟩
    by_cases hblank : item = []
    · subst item
      exact .inl hitem
    · exact .inr ⟨item, mem_nonBlankItems.mpr ⟨hitem, hblank⟩, hmatch⟩
  · rintro (hblank | ⟨item, hitem, hmatch⟩)
    · exact ⟨[], hblank, matchesPattern_nil lowercased field target⟩
    · exact ⟨item, (mem_nonBlankItems.mp hitem).1, hmatch⟩

theorem ListField.AddsBlankItems.hasBlankItem {field : ListField} {list list' : CStr}
    (h : field.AddsBlankItems list list') (hblank : field.HasBlankItem list) :
    field.HasBlankItem list' :=
  (h.1.map _).subset hblank

/-- A list with a non-blank item matches exactly what its non-blank items match if and only if
it has no blank item or one of the others matches anyway. Adding blank items leaves the answer
alone if and only if there are none afterwards, there was one before, or another item matches. -/
theorem matchesList_blankItems (field : ListField) (list : CStr) (target : Target) :
    ((field.matchesList lowercased list target = true ↔
        ∃ item ∈ field.nonBlankItems list, field.matchesPattern lowercased item target = true) ↔
      ¬ field.HasBlankItem list ∨
        ∃ item ∈ field.nonBlankItems list, field.matchesPattern lowercased item target = true) ∧
    ∀ list', field.AddsBlankItems list list' →
      (field.matchesList lowercased list' target = field.matchesList lowercased list target ↔
        ¬ field.HasBlankItem list' ∨ field.HasBlankItem list ∨
          ∃ item ∈ field.nonBlankItems list,
            field.matchesPattern lowercased item target = true) := by
  have hlist := matchesList_iff lowercased field list target
  constructor
  · rw [hlist]
    by_cases hitem : ∃ item ∈ field.nonBlankItems list,
        field.matchesPattern lowercased item target = true
    · simp only [hitem, or_true]
    · simp [hitem]
  · intro list' hadds
    have hlist' := matchesList_iff lowercased field list' target
    rw [hadds.2] at hlist'
    rw [Bool.eq_iff_iff, hlist, hlist']
    by_cases hblank : field.HasBlankItem list
    · simp [hblank, hadds.hasBlankItem hblank]
    · by_cases hitem : ∃ item ∈ field.nonBlankItems list,
          field.matchesPattern lowercased item target = true
      · simp only [hitem, or_true]
      · simp [hblank, hitem]

end

theorem matchesList_blankItems_firefox :
    let firefox : Target := ⟨"firefox".toList, "192.0.2.1".toList, 443⟩
    ListField.processNames.matchesList lower "firefox;".toList firefox =
      ListField.processNames.matchesList lower "firefox".toList firefox := by
  intro firefox
  have hadds : ListField.processNames.AddsBlankItems "firefox".toList "firefox;".toList :=
    ⟨by decide, by decide⟩
  exact ((matchesList_blankItems lower .processNames "firefox".toList firefox).2 _ hadds).mpr
    (.inr (.inr ⟨"firefox".toList, by decide, by decide⟩))

/-- A trailing delimiter turns a rule for one process into a rule for all of them. -/
theorem matchesList_trailingDelimiter :
    let curl : Target := ⟨"curl".toList, "192.0.2.1".toList, 443⟩
    ListField.processNames.nonBlankItems "firefox;".toList = ["firefox".toList] ∧
    ListField.processNames.matchesPattern lower "firefox".toList curl = false ∧
    ListField.processNames.matchesList lower "firefox;".toList curl = true ∧
    ListField.processNames.AddsBlankItems "firefox".toList "firefox;".toList ∧
    ListField.processNames.matchesList lower "firefox".toList curl = false := by
  refine ⟨by decide, by decide, by decide, ⟨by decide, by decide⟩, by decide⟩

theorem mem_dropWhile_of_not {set : Char → Bool} {text : CStr} {c : Char} (hc : c ∈ text)
    (h : set c = false) : c ∈ text.dropWhile set := by
  rw [← List.takeWhile_append_dropWhile (p := set) (l := text), List.mem_append] at hc
  rcases hc with htake | hdrop
  · rw [List.mem_takeWhile_imp htake] at h
    cases h
  · exact hdrop

theorem mem_trimmingCharacters {set : Char → Bool} {text : CStr} {c : Char} (hc : c ∈ text)
    (h : set c = false) : c ∈ trimmingCharacters set text := by
  rw [trimmingCharacters, List.mem_reverse]
  refine mem_dropWhile_of_not ?_ h
  rw [List.mem_reverse]
  exact mem_dropWhile_of_not hc h

theorem mem_of_mem_trimmingCharacters {set : Char → Bool} {text : CStr} {c : Char}
    (hc : c ∈ trimmingCharacters set text) : c ∈ text := by
  rw [trimmingCharacters, List.mem_reverse] at hc
  have hc' := (List.dropWhile_sublist set).subset hc
  rw [List.mem_reverse] at hc'
  exact (List.dropWhile_sublist set).subset hc'

theorem trimmingCharacters_eq_self {set : Char → Bool} {text : CStr}
    (h : ∀ c ∈ text, set c = false) : trimmingCharacters set text = text := by
  have hkeep : ∀ l : CStr, (∀ c ∈ l, set c = false) → l.dropWhile set = l := by
    intro l hl
    cases l with
    | nil => rfl
    | cons c cs => simp [hl c List.mem_cons_self]
  rw [trimmingCharacters, hkeep text h, hkeep, List.reverse_reverse]
  intro c hc
  exact h c (List.mem_reverse.mp hc)

theorem components_single {delimiters text : CStr} (h : ∀ c ∈ text, c ∉ delimiters) :
    components delimiters text = [text] := by
  apply List.splitOnP_eq_singleton
  intro c hc
  simpa using h c hc

theorem components_dot (text : CStr) : components ['.'] text = text.splitOn '.' := by
  rw [components, List.splitOn]
  congr 1
  funext c
  rw [Bool.eq_iff_iff]
  simp

theorem matchList_single {delimiters list : CStr} (accepts : CStr → Bool) (hne : list ≠ [])
    (hdelimiters : ∀ c ∈ list, c ∉ delimiters)
    (htrim : ∀ c ∈ list, isWhitespaceOrNewline c = false) :
    matchList delimiters accepts list = (list = ['*'] || accepts list : Bool) := by
  by_cases hstar : list = ['*']
  · simp [matchList, hstar]
  · rw [matchList, if_neg (by simp [hne, hstar]), components_single hdelimiters]
    simp [trimmingCharacters_eq_self htrim, hstar]

theorem isWhitespaceOrNewline_of_toNat {c : Char} (hlow : 0x2D ≤ c.toNat) (hhigh : c.toNat ≤ 57) :
    isWhitespaceOrNewline c = false := by
  simp only [isWhitespaceOrNewline, isWhitespace, Bool.or_eq_false_iff,
    Bool.and_eq_false_iff, decide_eq_false_iff_not]
  omega

/-- A pattern without a wildcard and without a separator is compared with the file name. -/
theorem matchProcessPattern_plain (lowercased : CStr → CStr) {pattern : CStr} (hne : pattern ≠ [])
    (h : ∀ c ∈ pattern, c ∉ ['*', ',', ';', '/', '\\']) (path filename : CStr) :
    matchProcessPattern lowercased pattern path filename =
      (lowercased filename = lowercased pattern : Bool) := by
  have hnot : ∀ c ∈ ['*', ',', ';', '/', '\\'], c ∉ pattern := fun c hc hmem => h c hmem hc
  obtain ⟨hstar, hlast, hhead⟩ := ends_ne_of_not_mem (hnot '*' (by decide))
  simp [matchProcessPattern, PatternCharacters.starChar, PatternCharacters.slashChar,
    PatternCharacters.backslashChar, hne, hstar, hlast, hhead, hnot]

end ProxyTun.MacOS
