import ProxyTun.Core.Filters
import ProxyTun.Library.Glob

/-!
# Process patterns as globs

The engines compare a pattern piece by piece, what is before its star and what is behind it. A
glob says what a pattern means without these cases.
-/
namespace ProxyTun
open Library

/-- The pattern matches as a glob that ignores the case of letters. -/
def GlobIgnoringCase (pattern target : CStr) : Prop :=
  Glob.Matches '*' (fun c d => c.toLower = d.toLower) pattern target

theorem globIgnoringCase_plain_iff {pattern target : CStr} (h : '*' ∉ pattern) :
    GlobIgnoringCase pattern target ↔ lower pattern = lower target := by
  rw [GlobIgnoringCase, Glob.matches_iff_forall₂ h]
  exact Glob.forall₂_key_iff

theorem globIgnoringCase_star_iff {before behind target : CStr} (hbefore : '*' ∉ before)
    (hbehind : '*' ∉ behind) :
    GlobIgnoringCase (before ++ '*' :: behind) target ↔
      lower before <+: lower target ∧ lower behind <:+ lower target ∧
        before.length + behind.length ≤ target.length :=
  Glob.matches_oneStar_key_iff hbefore hbehind

theorem samePrefixIgnoringCase_iff (before rest target : CStr) :
    samePrefixIgnoringCase (before ++ rest) target before.length = true ↔
      lower before <+: lower target := by
  rw [samePrefixIgnoringCase, decide_eq_true_iff, List.prefix_iff_eq_take]
  simp [lower]

theorem sameIgnoringCase_end_iff (behind target : CStr) :
    sameIgnoringCase (target.drop (target.length - behind.length)) behind = true ↔
      lower behind <:+ lower target := by
  rw [sameIgnoringCase, decide_eq_true_iff, List.suffix_iff_eq_drop]
  simp only [lower, List.map_drop, List.length_map]
  exact eq_comm

theorem length_le_of_suffix {behind target : CStr} (h : lower behind <:+ lower target) :
    behind.length ≤ target.length := by
  simpa [lower] using h.length_le

theorem matchTail_iff (before target : CStr) :
    matchTail (before ++ ['*']) target = true ↔ lower before <+: lower target := by
  rw [← samePrefixIgnoringCase_iff before ['*'] target, matchTail]
  simp

theorem matchSuffix_iff (behind target : CStr) :
    matchSuffix behind target = true ↔ lower behind <:+ lower target := by
  rw [matchSuffix, Bool.and_eq_true_iff, sameIgnoringCase_end_iff, decide_eq_true_iff]
  exact and_iff_right_of_imp length_le_of_suffix

namespace Windows

/-- What a pattern is compared with: the whole path for a pattern with a separator, else the file
name. -/
def matchTarget (pattern process : CStr) : CStr :=
  if pattern.contains '\\' || pattern.contains '/' then process else afterLast '\\' process

theorem matchProcessPattern_of_not_mem {pattern : CStr} (h : '*' ∉ pattern) (process : CStr) :
    matchProcessPattern pattern process =
      sameIgnoringCase pattern (matchTarget pattern process) := by
  obtain ⟨hall, hlast, hhead⟩ := ends_ne_of_not_mem h
  simp [matchProcessPattern, matchTarget, hall, hlast, hhead, h]

theorem matchProcessPattern_star_iff {before behind : CStr} (hbefore : '*' ∉ before)
    (hbehind : '*' ∉ behind) (process : CStr) :
    matchProcessPattern (before ++ '*' :: behind) process = true ↔
      lower before <+: lower (matchTarget (before ++ '*' :: behind) process) ∧
        lower behind <:+ lower (matchTarget (before ++ '*' :: behind) process) ∧
        before.length + behind.length ≤
          (matchTarget (before ++ '*' :: behind) process).length := by
  set target := matchTarget (before ++ '*' :: behind) process with htarget
  have hlength (h : lower before <+: lower target) : before.length ≤ target.length := by
    simpa [lower] using h.length_le
  by_cases hall : before ++ '*' :: behind = ['*']
  · obtain ⟨rfl, rfl⟩ : before = [] ∧ behind = [] := by
      simpa [List.append_eq_singleton_iff] using hall
    simp [matchProcessPattern, lower]
  rw [matchProcessPattern, decide_eq_false hall, Bool.false_or]
  change (if (before ++ '*' :: behind).getLast? = some '*' then _ else _) = true ↔ _
  rw [← matchTarget, ← htarget]
  split_ifs with hlast hhead hmem
  · obtain rfl := (Glob.getLast?_star_iff hbehind).mp hlast
    rw [matchTail_iff]
    simpa [lower] using hlength
  · rw [Bool.and_eq_true_iff, decide_eq_true_iff, decide_eq_true_iff,
      Glob.head?_star_iff hbefore] at hhead
    obtain rfl := hhead.2
    rw [List.nil_append, List.drop_succ_cons, List.drop_zero, matchSuffix_iff]
    have hempty : lower [] <+: lower target := List.nil_prefix
    constructor
    · intro hsuffix
      exact ⟨hempty, hsuffix, by simpa using length_le_of_suffix hsuffix⟩
    · exact fun h => h.2.1
  · rw [takeWhile_ne_append hbefore, dropWhile_ne_append hbefore, List.drop_succ_cons,
      List.drop_zero, Bool.and_eq_true_iff, Bool.and_eq_true_iff, samePrefixIgnoringCase_iff,
      sameIgnoringCase_end_iff, decide_eq_true_iff]
    tauto
  · simp at hmem

theorem matchProcessPattern_of_count_iff {pattern : CStr} (h : pattern.count '*' ≤ 1)
    (process : CStr) :
    matchProcessPattern pattern process = true ↔
      GlobIgnoringCase pattern (matchTarget pattern process) := by
  by_cases hmem : '*' ∈ pattern
  · obtain ⟨before, behind, rfl, hbefore, hbehind⟩ := Glob.exists_cut_at_star hmem h
    rw [matchProcessPattern_star_iff hbefore hbehind, globIgnoringCase_star_iff hbefore hbehind]
  · rw [matchProcessPattern_of_not_mem hmem, globIgnoringCase_plain_iff hmem, sameIgnoringCase,
      decide_eq_true_iff]

/-- A pattern with at most one star is a glob. -/
theorem matchProcessPattern_iff_glob {pattern : CStr} (h : pattern.count '*' ≤ 1)
    (process : CStr) :
    matchProcessPattern pattern process = true ↔
      GlobIgnoringCase pattern (matchTarget pattern process) :=
  matchProcessPattern_of_count_iff h process

theorem matchProcessPattern_iff_glob_fire :
    GlobIgnoringCase "fire*.EXE".toList
        (matchTarget "fire*.EXE".toList "C:\\Apps\\Firefox.exe".toList) ∧
      ¬ GlobIgnoringCase "ab*ba".toList (matchTarget "ab*ba".toList "C:\\aba".toList) := by
  constructor
  · exact (matchProcessPattern_iff_glob (by decide) _).mp (by decide)
  · intro hglob
    exact absurd ((matchProcessPattern_iff_glob (by decide) _).mpr hglob) (by decide)

end Windows

end ProxyTun
