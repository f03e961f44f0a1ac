import Mathlib.Data.List.DropRight
import ProxyTun.Linux.ProcessGlobs
import ProxyTun.Rules.Editing

/-!
# Process lists longer than their field

The hosts and ports of a rule are copied at their whole length. Its process list goes into a field
of 256 bytes, so that the entry at the end of the field is cut and those behind it are lost.
-/
namespace ProxyTun
open Windows (Allocation RuleStore RuleFields updateRule truncateName)

def acceptsProcess : Platform → CStr → CStr → Bool
  | .windows, path, token => Windows.matchProcessPattern (Windows.trimToken token) path
  | .linux, path, token =>
    Linux.trimToken token ≠ [] && Linux.matchProcessPattern (Linux.trimToken token) path

def processSeparators : Platform → List Char
  | .windows => [',', ';']
  | .linux => [';']

def someEntryMatches (pf : Platform) (path text : CStr) : Bool :=
  (strtok (processSeparators pf) text).any (acceptsProcess pf path)

theorem matchProcessList_eq (pf : Platform) (list path : CStr) :
    (filters pf).matchProcessList list path =
      (list = [] || list = ['*'] || someEntryMatches pf path list) := by
  cases pf <;> rfl

/-- The entries that end in front of the last separator of a text, and the entry behind it. -/
def closedEntries (pf : Platform) (text : CStr) : CStr :=
  text.rdropWhile fun c => !(processSeparators pf).contains c

def openEntry (pf : Platform) (text : CStr) : CStr :=
  text.rtakeWhile fun c => !(processSeparators pf).contains c

/-- What the platform compares a process pattern with. -/
def matchTarget : Platform → CStr → CStr → CStr
  | .windows => Windows.matchTarget
  | .linux => Linux.matchTarget

/-- What a text of its own says of a process: a star at its end asks how the target begins, one at
its beginning how it ends, one inside for both on Windows, and any other text is the target. -/
def Names (pf : Platform) (text path : CStr) : Prop :=
  if text.getLast? = some '*' then lower text.dropLast <+: lower (matchTarget pf text path)
  else if text.head? = some '*' then lower text.tail <:+ lower (matchTarget pf text path)
  else if pf = .windows ∧ '*' ∈ text then
    lower (text.takeWhile (· != '*')) <+: lower (matchTarget pf text path) ∧
      lower ((text.dropWhile (· != '*')).drop 1) <:+ lower (matchTarget pf text path) ∧
      (text.takeWhile (· != '*')).length + ((text.dropWhile (· != '*')).drop 1).length ≤
        (matchTarget pf text path).length
  else lower text = lower (matchTarget pf text path)

def trimProcess : Platform → CStr → CStr
  | .windows => Windows.trimToken
  | .linux => Linux.trimToken

/-- An entry names the process by its text without blanks around it. On Linux an entry of blanks
is passed over. -/
def EntryNames (pf : Platform) (entry path : CStr) : Prop :=
  (pf = .linux → trimProcess pf entry ≠ []) ∧ Names pf (trimProcess pf entry) path

/-- An entry that ends in front of the cut names the process, or else what is kept of the entry at
the cut names it just when this entry as given or one behind it does. -/
def CutKeeps (pf : Platform) (list path : CStr) : Prop :=
  (∃ entry ∈ strtok (processSeparators pf) (closedEntries pf (truncateName list)),
      EntryNames pf entry path) ∨
    (openEntry pf (truncateName list) ≠ [] ∧
        EntryNames pf (openEntry pf (truncateName list)) path ↔
      ∃ entry ∈ strtok (processSeparators pf)
          (openEntry pf (truncateName list) ++ list.drop 255), EntryNames pf entry path)

/-- The rule that a successful call has made of the arguments or changed to them. -/
inductive Written (pf : Platform) (fields : RuleFields) (rule : Rule) : Prop where
  | added (allocation : Allocation) (s : RuleStore)
      (hsuccess : ((ruleApi pf).addRule allocation fields s).1 ≠ 0)
      (hrule : (((ruleApi pf).addRule allocation fields s).2.rules.find? fun other =>
        other.ruleId = ((ruleApi pf).addRule allocation fields s).1) = some rule)
  | edited (copied : Bool) (ruleId : BitVec 32) (s : RuleStore)
      (hsuccess : ((ruleApi pf).editRule copied ruleId fields s).1 = true)
      (hrule : (((ruleApi pf).editRule copied ruleId fields s).2.rules.find? fun other =>
        other.ruleId = ruleId) = some rule)

variable {pf : Platform} {fields : RuleFields} {rule : Rule} {list path : CStr}

theorem find?_updateRule {f : Rule → Rule} (hf : ∀ rule, (f rule).ruleId = rule.ruleId)
    (ruleId : BitVec 32) (rules : List Rule) :
    ((updateRule ruleId f rules).find? fun other => other.ruleId = ruleId) =
      (rules.find? fun other => other.ruleId = ruleId).map f := by
  induction rules with
  | nil => rfl
  | cons other rules ih =>
    unfold updateRule
    by_cases hid : other.ruleId = ruleId
    · simp [hid, hf]
    · rw [if_neg hid, List.find?_cons_of_neg (by simpa using hid),
        List.find?_cons_of_neg (by simpa using hid), ih]

theorem addRule_succeeds {allocation : Allocation} {s : RuleStore}
    (h : ((ruleApi pf).addRule allocation fields s).1 ≠ 0) :
    ((ruleApi pf).addRule allocation fields s).1 = s.nextRuleId ∧
      ((ruleApi pf).addRule allocation fields s).2.rules =
        fields.rule s.nextRuleId :: s.rules := by
  have hadd : (ruleApi pf).addRule = RuleStore.addRule := by
    cases pf <;> rfl
  rw [hadd] at h ⊢
  unfold RuleStore.addRule at h ⊢
  split_ifs at h ⊢
  · exact absurd rfl h
  · cases allocation with
    | succeeds => exact ⟨rfl, rfl⟩
    | ruleFails => exact absurd rfl h
    | textFails => exact absurd rfl h

theorem Written.processName_eq (h : Written pf fields rule) :
    rule.processName = truncateName fields.processName := by
  cases h with
  | added allocation s hsuccess hrule =>
    obtain ⟨hid, hrules⟩ := addRule_succeeds hsuccess
    rw [hid, hrules, List.find?_cons_of_pos (by simp)] at hrule
    rw [← Option.some.inj hrule]
    rfl
  | edited copied ruleId s hsuccess hrule =>
    rw [editRule_succeeds hsuccess, find?_updateRule (RuleStore.edited_ruleId true fields),
      Option.map_eq_some_iff] at hrule
    obtain ⟨other, -, rfl⟩ := hrule
    rfl

theorem strtok_append_cons {delimiters : List Char} {separator : Char}
    (h : separator ∈ delimiters) (front behind : CStr) :
    strtok delimiters (front ++ separator :: behind) =
      strtok delimiters front ++ strtok delimiters behind := by
  unfold strtok
  rw [List.splitOnP_append_cons _ _ (by simpa using h), List.filter_append]

theorem someEntryMatches_nil : someEntryMatches pf path [] = false := by
  rw [someEntryMatches, strtok, List.splitOnP_nil]
  rfl

theorem someEntryMatches_append {front : CStr}
    (h : ∀ hne : front ≠ [], front.getLast hne ∈ processSeparators pf) (behind : CStr) :
    someEntryMatches pf path (front ++ behind) =
      (someEntryMatches pf path front || someEntryMatches pf path behind) := by
  by_cases hne : front = []
  · rw [hne, List.nil_append, someEntryMatches_nil, Bool.false_or]
  · have hlast := h hne
    have hempty : strtok (processSeparators pf) [] = [] := by
      rw [strtok, List.splitOnP_nil]
      rfl
    rw [← List.dropLast_append_getLast hne]
    unfold someEntryMatches
    rw [List.append_assoc, List.singleton_append, strtok_append_cons hlast,
      strtok_append_cons hlast, hempty, List.append_nil, List.any_append]

theorem closedEntries_getLast (text : CStr) (hne : closedEntries pf text ≠ []) :
    (closedEntries pf text).getLast hne ∈ processSeparators pf := by
  have hlast := List.rdropWhile_last_not _ text hne
  rw [Bool.not_eq_true, Bool.not_eq_false'] at hlast
  exact List.contains_iff_mem.mp hlast

theorem someEntryMatches_cut (text behind : CStr) :
    someEntryMatches pf path (text ++ behind) =
      (someEntryMatches pf path (closedEntries pf text) ||
        someEntryMatches pf path (openEntry pf text ++ behind)) := by
  rw [← someEntryMatches_append (closedEntries_getLast text), ← List.append_assoc]
  congr 2
  exact (List.rdropWhile_append_rtakeWhile).symm

theorem samePrefix_dropLast_iff {text : CStr} (h : text.getLast? = some '*') (target : CStr) :
    matchTail text target = true ↔ lower text.dropLast <+: lower target := by
  obtain ⟨before, rfl⟩ := List.getLast?_eq_some_iff.mp h
  rw [matchTail_iff, List.dropLast_concat]

theorem matchProcessPattern_windows_iff (text path : CStr) :
    Windows.matchProcessPattern text path = true ↔ Names .windows text path := by
  by_cases hall : text = ['*']
  · rw [hall]
    simp [Windows.matchProcessPattern, Names, lower]
  rw [Windows.matchProcessPattern, decide_eq_false hall, Bool.false_or, Names]
  change (if text.getLast? = some '*' then _ else _) = true ↔ _
  rw [← Windows.matchTarget]
  by_cases hlast : text.getLast? = some '*'
  · rw [if_pos hlast, if_pos hlast]
    exact samePrefix_dropLast_iff hlast _
  rw [if_neg hlast, if_neg hlast]
  by_cases hhead : text.head? = some '*'
  · have hlong : 1 < text.length := by
      obtain ⟨rest, rfl⟩ := List.head?_eq_some_iff.mp hhead
      cases rest with
      | nil => exact absurd rfl hall
      | cons c cs => simp
    rw [if_pos (by simp [hlong, hhead]), if_pos hhead, List.drop_one]
    exact matchSuffix_iff _ _
  rw [if_neg (by simp [hhead]), if_neg hhead]
  by_cases hmem : '*' ∈ text
  · have hcut : text.takeWhile (· != '*') ++ text.dropWhile (· != '*') = text :=
      List.takeWhile_append_dropWhile
    rw [if_pos (by simpa using hmem), if_pos ⟨rfl, hmem⟩]
    simp only [Bool.and_eq_true_iff, sameIgnoringCase_end_iff, decide_eq_true_iff]
    rw [← samePrefixIgnoringCase_iff _ (text.dropWhile (· != '*')), hcut, and_assoc,
      and_comm (a := _ ≤ _)]
    rfl
  · rw [if_neg (by simpa using hmem), if_neg (by simp [hmem]), sameIgnoringCase,
      decide_eq_true_iff]
    rfl

theorem matchProcessPattern_linux_iff (text path : CStr) :
    Linux.matchProcessPattern text path = true ↔ Names .linux text path := by
  by_cases hall : text = ['*']
  · rw [hall]
    simp [Linux.matchProcessPattern, Names, lower]
  rw [Linux.matchProcessPattern, decide_eq_false hall, Bool.false_or, Names]
  change (if text.getLast? = some '*' then _ else _) = true ↔ _
  rw [← Linux.matchTarget]
  by_cases hlast : text.getLast? = some '*'
  · rw [if_pos hlast, if_pos hlast]
    exact samePrefix_dropLast_iff hlast _
  rw [if_neg hlast, if_neg hlast]
  by_cases hhead : text.head? = some '*'
  · have hlong : 1 < text.length := by
      obtain ⟨rest, rfl⟩ := List.head?_eq_some_iff.mp hhead
      cases rest with
      | nil => exact absurd rfl hall
      | cons c cs => simp
    rw [if_pos (by simp [hlong, hhead]), if_pos hhead, List.drop_one]
    exact matchSuffix_iff _ _
  rw [if_neg (by simp [hhead]), if_neg hhead, if_neg (by simp), sameIgnoringCase,
    decide_eq_true_iff]
  rfl

instance : (pf : Platform) → (text path : CStr) → Decidable (Names pf text path)
  | .windows, text, path => decidable_of_iff _ (matchProcessPattern_windows_iff text path)
  | .linux, text, path => decidable_of_iff _ (matchProcessPattern_linux_iff text path)

instance (pf : Platform) (entry path : CStr) : Decidable (EntryNames pf entry path) :=
  inferInstanceAs (Decidable (_ ∧ _))

instance (pf : Platform) (list path : CStr) : Decidable (CutKeeps pf list path) :=
  inferInstanceAs (Decidable (_ ∨ _))

theorem acceptsProcess_iff (entry : CStr) :
    acceptsProcess pf path entry = true ↔ EntryNames pf entry path := by
  unfold EntryNames
  cases pf with
  | windows =>
    rw [acceptsProcess, matchProcessPattern_windows_iff]
    simp [trimProcess]
  | linux =>
    rw [acceptsProcess, Bool.and_eq_true_iff, matchProcessPattern_linux_iff]
    simp [trimProcess]

theorem mem_openEntry {text : CStr} {c : Char} (h : c ∈ openEntry pf text) :
    c ∉ processSeparators pf := by
  have hkept := List.mem_rtakeWhile_imp h
  simpa using hkept

theorem someEntryMatches_openEntry_iff (text : CStr) :
    someEntryMatches pf path (openEntry pf text) = true ↔
      openEntry pf text ≠ [] ∧ EntryNames pf (openEntry pf text) path := by
  by_cases hnil : openEntry pf text = []
  · rw [hnil, someEntryMatches_nil]
    simp
  · rw [someEntryMatches, strtok_eq_singleton hnil fun c hc => mem_openEntry hc,
      and_iff_right hnil, ← acceptsProcess_iff]
    simp

theorem someEntryMatches_iff (text : CStr) :
    someEntryMatches pf path text = true ↔
      ∃ entry ∈ strtok (processSeparators pf) text, EntryNames pf entry path := by
  simp only [someEntryMatches, List.any_eq_true, acceptsProcess_iff]

theorem cutKeeps_of_length_le (h : list.length ≤ 255) : CutKeeps pf list path := by
  rw [CutKeeps, List.drop_eq_nil_of_le h, List.append_nil, ← someEntryMatches_iff,
    ← someEntryMatches_iff]
  exact .inr (someEntryMatches_openEntry_iff _).symm

/-- A list of 257 characters whose second entry loses its last two. -/
def longList : CStr := List.replicate 249 'a' ++ ";firefox".toList

end ProxyTun
