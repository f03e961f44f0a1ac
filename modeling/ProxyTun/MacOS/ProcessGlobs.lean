import ProxyTun.Core.ProcessGlobs
import ProxyTun.MacOS.RuleMatching

/-!
# Process patterns of the extension

A pattern with its star in the middle is cut there, and the target has to begin with one part and
to end with the other. Nothing keeps the two parts from meeting in the target. Strings are the lists
of their characters, as Swift compares them.
-/
namespace ProxyTun.MacOS
open Library PatternCharacters

variable {χ : Type} [PatternCharacters χ]

/-- `lowercased()` maps a string character by character, and a star comes from a star only. -/
structure MapsCase (lowercased : List χ → List χ) : Prop where
  append : ∀ text text', lowercased (text ++ text') = lowercased text ++ lowercased text'
  star : lowercased [starChar] = [starChar]
  not_mem : ∀ text, starChar ∉ text → starChar ∉ lowercased text

section
variable {lowercased : List χ → List χ}

theorem MapsCase.nil (h : MapsCase lowercased) : lowercased [] = [] := by
  have happend := h.append [] []
  simpa using happend

theorem MapsCase.cut (h : MapsCase lowercased) (before behind : List χ) :
    lowercased (before ++ starChar :: behind) =
      lowercased before ++ starChar :: lowercased behind := by
  rw [h.append, ← List.singleton_append, h.append, h.star, List.singleton_append]

end

variable [DecidableEq χ]

/-- What a pattern is compared with: the whole path for a pattern with a separator, else its last
component. -/
def matchTarget (pattern processPath filename : List χ) : List χ :=
  if pattern.contains slashChar || pattern.contains backslashChar then processPath else filename

section
variable (lowercased : List χ → List χ)

/-- The pattern matches as a glob that ignores the case of letters. -/
def GlobLowercased (pattern target : List χ) : Prop :=
  Glob.Matches starChar (fun c d => c = d) (lowercased pattern) (lowercased target)

/-- The target begins with what is before the star and ends with what is behind it, but is too
short for both. -/
def PartsMeet (pattern target : List χ) : Prop :=
  lowercased (pattern.takeWhile (· != starChar)) <+: lowercased target ∧
    lowercased ((pattern.dropWhile (· != starChar)).drop 1) <:+ lowercased target ∧
    (lowercased target).length < (lowercased (pattern.takeWhile (· != starChar))).length +
      (lowercased ((pattern.dropWhile (· != starChar)).drop 1)).length

instance (pattern target : List χ) : Decidable (PartsMeet lowercased pattern target) :=
  inferInstanceAs (Decidable (_ ∧ _ ∧ _))

end

variable {lowercased : List χ → List χ}

theorem mapsCase_lower : MapsCase lower where
  append text text' := List.map_append
  star := rfl
  not_mem text htext := by
    intro hmem
    obtain ⟨c, hc, hstar⟩ := List.mem_map.mp hmem
    change c.toLower = '*' at hstar
    unfold Char.toLower at hstar
    split_ifs at hstar with hupper
    · have hval : c.val + ('a'.val - 'A'.val) = '*'.val := congrArg Char.val hstar
      have hlow : 65 ≤ c.val.toNat := hupper.1
      have hhigh : c.val.toNat ≤ 90 := hupper.2
      have hsum : (c.val.toNat + 32) % 2 ^ 32 = 42 := congrArg UInt32.toNat hval
      omega
    · subst hstar
      exact htext hc

theorem matchProcessPattern_star_iff (h : MapsCase lowercased) {before behind : List χ}
    (hbefore : starChar ∉ before) (hbehind : starChar ∉ behind) (processPath filename : List χ) :
    matchProcessPattern lowercased (before ++ starChar :: behind) processPath filename = true ↔
      lowercased before <+:
          lowercased (matchTarget (before ++ starChar :: behind) processPath filename) ∧
        lowercased behind <:+
          lowercased (matchTarget (before ++ starChar :: behind) processPath filename) := by
  set target := matchTarget (before ++ starChar :: behind) processPath filename with htarget
  by_cases hall : before ++ starChar :: behind = [starChar]
  · obtain ⟨rfl, rfl⟩ : before = [] ∧ behind = [] := by
      simpa [List.append_eq_singleton_iff] using hall
    simp [matchProcessPattern, h.nil]
  rw [matchProcessPattern, if_neg (by simp [hall])]
  change (if (before ++ starChar :: behind).getLast? = some starChar then _ else _) = true ↔ _
  rw [← matchTarget, ← htarget]
  split_ifs with hlast hhead hmem
  · obtain rfl := (Glob.getLast?_star_iff hbehind).mp hlast
    simp [h.nil]
  · obtain rfl := (Glob.head?_star_iff hbefore).mp hhead
    simp [h.nil]
  · rw [takeWhile_ne_append hbefore, dropWhile_ne_append hbefore, List.drop_succ_cons,
      List.drop_zero]
    simp
  · simp at hmem

/-- A pattern with one star is a glob except on targets in which its parts meet. -/
theorem matchProcessPattern_eq_glob_iff (h : MapsCase lowercased) (characters : CStr → List χ)
    {pattern : List χ} (hcount : pattern.count starChar = 1) (processPath : CStr) :
    (matchProcessPattern lowercased pattern (characters processPath)
          (characters (lastPathComponent processPath)) = true ↔
        GlobLowercased lowercased pattern (matchTarget pattern (characters processPath)
          (characters (lastPathComponent processPath)))) ↔
      ¬ PartsMeet lowercased pattern (matchTarget pattern (characters processPath)
        (characters (lastPathComponent processPath))) := by
  have hmem : starChar ∈ pattern := List.count_pos_iff.mp (by omega)
  obtain ⟨before, behind, rfl, hbefore, hbehind⟩ := Glob.exists_cut_at_star hmem hcount.le
  rw [matchProcessPattern_star_iff h hbefore hbehind, GlobLowercased, h.cut,
    Glob.matches_oneStar_eq_iff (h.not_mem before hbefore) (h.not_mem behind hbehind), PartsMeet,
    takeWhile_ne_append hbefore, dropWhile_ne_append hbefore, List.drop_succ_cons, List.drop_zero]
  rw [← not_le]
  tauto

/-- The parts of the pattern do not meet in a longer name. -/
theorem matchProcessPattern_ab :
    matchProcessPattern lower "ab*ba".toList "/bin/abba".toList
        (lastPathComponent "/bin/abba".toList) = true ↔
      GlobLowercased lower "ab*ba".toList (matchTarget "ab*ba".toList "/bin/abba".toList
        (lastPathComponent "/bin/abba".toList)) :=
  (matchProcessPattern_eq_glob_iff mapsCase_lower id (by decide) "/bin/abba".toList).mpr
    (by decide)

/-- One letter serves as the end of the one part and the beginning of the other. -/
theorem matchProcessPattern_partsMeet :
    "ab*ba".toList.count '*' = 1 ∧
    matchProcessPattern lower "ab*ba".toList "/bin/aba".toList
      (lastPathComponent "/bin/aba".toList) = true ∧
    ¬ GlobLowercased lower "ab*ba".toList (matchTarget "ab*ba".toList "/bin/aba".toList
      (lastPathComponent "/bin/aba".toList)) := by
  refine ⟨by decide, by decide, fun hglob => ?_⟩
  obtain ⟨-, -, hlength⟩ : "ab".toList <+: "aba".toList ∧ "ba".toList <:+ "aba".toList ∧
      "ab".toList.length + "ba".toList.length ≤ "aba".toList.length :=
    (Glob.matches_oneStar_eq_iff (by decide) (by decide)).mp hglob
  revert hlength
  decide

end ProxyTun.MacOS
