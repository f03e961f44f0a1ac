import ProxyTun.Core.ProcessGlobs

/-!
# Process patterns of the Linux engine

The Linux matcher knows a star at either end of a pattern. It has no branch for a star in the
middle, and no comparison that minds the case of letters.
-/
namespace ProxyTun.Linux
open Library

/-- What a pattern is compared with: the whole path for a pattern with a slash, else the file
name. -/
def matchTarget (pattern process : CStr) : CStr :=
  if pattern.contains '/' then process else afterLast '/' process

/-- The pattern matches as a glob, letter by letter. -/
def GlobExact (pattern target : CStr) : Prop :=
  Glob.Matches '*' (fun c d => c = d) pattern target

theorem globIgnoringCase_of_globExact {pattern target : CStr} (h : GlobExact pattern target) :
    GlobIgnoringCase pattern target := by
  induction h with
  | nil => exact .nil
  | skip skipped _ ih => exact .skip skipped ih
  | letter hstar hsame _ ih => exact .letter hstar (congrArg Char.toLower hsame) ih

/-- Nothing stands in front of the star of the pattern, or nothing behind it. -/
def StarAtEnd (pattern : CStr) : Prop :=
  pattern.count '*' ≤ 1 ∧
    ('*' ∈ pattern → pattern.head? = some '*' ∨ pattern.getLast? = some '*')

instance (pattern : CStr) : Decidable (StarAtEnd pattern) := inferInstanceAs (Decidable (_ ∧ _))

theorem matchProcessPattern_of_not_mem {pattern : CStr} (h : '*' ∉ pattern) (process : CStr) :
    matchProcessPattern pattern process =
      sameIgnoringCase pattern (matchTarget pattern process) := by
  obtain ⟨hall, hlast, hhead⟩ := ends_ne_of_not_mem h
  simp [matchProcessPattern, matchTarget, hall, hlast, hhead]

theorem matchProcessPattern_tail_iff (before process : CStr) :
    matchProcessPattern (before ++ ['*']) process = true ↔
      lower before <+: lower (matchTarget (before ++ ['*']) process) := by
  by_cases hall : before ++ ['*'] = ['*']
  · obtain rfl : before = [] := by simpa using hall
    simp [matchProcessPattern, lower]
  · rw [matchProcessPattern, decide_eq_false hall, Bool.false_or]
    simp only [List.getLast?_concat, if_true]
    exact matchTail_iff before _

theorem matchProcessPattern_suffix_iff {behind : CStr} (hne : behind ≠ []) (h : '*' ∉ behind)
    (process : CStr) :
    matchProcessPattern ('*' :: behind) process = true ↔
      lower behind <:+ lower (matchTarget ('*' :: behind) process) := by
  have hlast : ('*' :: behind).getLast? ≠ some '*' := fun heq =>
    hne ((@Glob.getLast?_star_iff _ '*' [] behind h).mp heq)
  have hlength : 1 < ('*' :: behind).length := by
    simpa using List.length_pos_iff.mpr hne
  rw [matchProcessPattern, decide_eq_false (by simpa using hne), Bool.false_or]
  simp only [if_neg hlast, hlength, List.head?_cons, decide_true, Bool.and_self, if_true,
    List.drop_succ_cons, List.drop_zero]
  exact matchSuffix_iff behind _

theorem matchProcessPattern_middle {before behind : CStr} (hbefore : before ≠ [])
    (hbehind : behind ≠ []) (hstar : '*' ∉ before) (hstar' : '*' ∉ behind) (process : CStr) :
    matchProcessPattern (before ++ '*' :: behind) process =
      sameIgnoringCase (before ++ '*' :: behind)
        (matchTarget (before ++ '*' :: behind) process) := by
  have hlast := mt (@Glob.getLast?_star_iff _ '*' before behind hstar').mp hbehind
  have hhead := mt (@Glob.head?_star_iff _ '*' before behind hstar).mp hbefore
  have hall : before ++ '*' :: behind ≠ ['*'] := fun heq => hlast (by rw [heq]; rfl)
  rw [matchProcessPattern, decide_eq_false hall, Bool.false_or]
  simp only [if_neg hlast, decide_eq_false hhead, Bool.and_false, Bool.false_eq_true, if_false]
  rfl

theorem matchProcessPattern_of_starAtEnd_iff {pattern : CStr} (h : StarAtEnd pattern)
    (process : CStr) :
    matchProcessPattern pattern process = true ↔
      GlobIgnoringCase pattern (matchTarget pattern process) := by
  by_cases hmem : '*' ∈ pattern
  · obtain ⟨before, behind, rfl, hbefore, hbehind⟩ := Glob.exists_cut_at_star hmem h.1
    rw [globIgnoringCase_star_iff hbefore hbehind]
    set target := matchTarget (before ++ '*' :: behind) process with htarget
    by_cases hempty : behind = []
    · subst hempty
      rw [matchProcessPattern_tail_iff, ← htarget]
      have hlength (hfront : lower before <+: lower target) :
          before.length + ([] : CStr).length ≤ target.length := by
        simpa [lower] using hfront.length_le
      have hsuffix : lower [] <:+ lower target := List.nil_suffix
      tauto
    · have hhead := (h.2 hmem).resolve_right fun hlast =>
        hempty ((Glob.getLast?_star_iff hbehind).mp hlast)
      obtain rfl := (Glob.head?_star_iff hbefore).mp hhead
      rw [List.nil_append] at htarget ⊢
      rw [matchProcessPattern_suffix_iff hempty hbehind, ← htarget]
      have hlength (hback : lower behind <:+ lower target) :
          ([] : CStr).length + behind.length ≤ target.length := by
        simpa using length_le_of_suffix hback
      have hprefix : lower [] <+: lower target := List.nil_prefix
      tauto
  · rw [matchProcessPattern_of_not_mem hmem, globIgnoringCase_plain_iff hmem, sameIgnoringCase,
      decide_eq_true_iff]

/-- The letters of the target are those of the pattern, but some of them in the other case. -/
def DiffersInCaseOnly (pattern target : CStr) : Prop :=
  GlobIgnoringCase pattern target ∧ ¬ GlobExact pattern target

/-- The matcher is case-sensitive exactly on the targets that do not differ from the pattern in
the case of letters only. -/
theorem matchProcessPattern_caseSensitive_iff {pattern : CStr} (h : StarAtEnd pattern)
    (process : CStr) :
    (matchProcessPattern pattern process = true ↔
        GlobExact pattern (matchTarget pattern process)) ↔
      ¬ DiffersInCaseOnly pattern (matchTarget pattern process) := by
  rw [matchProcessPattern_of_starAtEnd_iff h, DiffersInCaseOnly, not_and, not_not]
  exact ⟨Iff.mp, fun himp => ⟨himp, globIgnoringCase_of_globExact⟩⟩

/-- The documented name matches its own program. -/
theorem matchProcessPattern_caseSensitive_firefox :
    matchProcessPattern "fire*".toList "/usr/bin/firefox".toList = true ↔
      GlobExact "fire*".toList (matchTarget "fire*".toList "/usr/bin/firefox".toList) := by
  apply (matchProcessPattern_caseSensitive_iff (by decide) "/usr/bin/firefox".toList).mpr
  rintro ⟨-, hexact⟩
  apply hexact
  have hglob : GlobExact ("fire".toList ++ '*' :: []) "firefox".toList :=
    (Glob.matches_oneStar_eq_iff (by decide) (by decide)).mpr (by decide)
  exact hglob

/-- A program whose name differs in its first letter gets the rule too. -/
theorem matchProcessPattern_ignores_case :
    StarAtEnd "firefox".toList ∧
    matchProcessPattern "firefox".toList "/usr/bin/Firefox".toList = true ∧
    ¬ GlobExact "firefox".toList (matchTarget "firefox".toList "/usr/bin/Firefox".toList) := by
  refine ⟨by decide, by decide, fun hglob => ?_⟩
  have hletters := (Glob.matches_iff_forall₂ (by decide)).mp hglob
  rw [List.forall₂_eq_eq_eq] at hletters
  revert hletters
  decide

def IsPortableLetter (c : Char) : Bool := c.isLower || c.isDigit || c = '.' || c = '-'

/-- A pattern of portable letters with at most one star. -/
structure IsPortablePattern (pattern : CStr) : Prop where
  nonempty : pattern ≠ []
  letters : ∀ c ∈ pattern, c = '*' ∨ IsPortableLetter c = true
  count : pattern.count '*' ≤ 1

/-- A file name without separators and capital letters. -/
def IsPortableName (name : CStr) : Prop := ∀ c ∈ name, c.toLower = c ∧ c ≠ '/' ∧ c ≠ '\\'

/-- The star stands inside the pattern, and the name is another text that begins with what is
before the star and ends with what is behind it. -/
def CoveredByMiddle (pattern name : CStr) : Prop :=
  pattern.head? ≠ some '*' ∧ pattern.getLast? ≠ some '*' ∧ '*' ∈ pattern ∧
    pattern.takeWhile (· != '*') <+: name ∧ (pattern.dropWhile (· != '*')).drop 1 <:+ name ∧
    pattern.length ≤ name.length + 1 ∧ name ≠ pattern

instance (pattern name : CStr) : Decidable (CoveredByMiddle pattern name) :=
  inferInstanceAs (Decidable (_ ∧ _ ∧ _ ∧ _ ∧ _ ∧ _ ∧ _))

theorem toLower_of_isPortableLetter {c : Char} (h : c = '*' ∨ IsPortableLetter c = true) :
    c.toLower = c ∧ c ≠ '/' ∧ c ≠ '\\' := by
  have hcode : 97 ≤ c.toNat ∧ c.toNat ≤ 122 ∨ 48 ≤ c.toNat ∧ c.toNat ≤ 57 ∨ c.toNat = 46 ∨
      c.toNat = 45 ∨ c.toNat = 42 := by
    rcases h with rfl | h
    · decide
    · simp only [IsPortableLetter, Bool.or_eq_true_iff, decide_eq_true_iff] at h
      rcases h with ((hlower | hdigit) | rfl) | rfl
      · have hbounds : decide ('a'.val ≤ c.val) && decide (c.val ≤ 'z'.val) := hlower
        rw [Bool.and_eq_true_iff, decide_eq_true_iff, decide_eq_true_iff] at hbounds
        exact .inl hbounds
      · simp only [Char.isDigit, Bool.and_eq_true_iff, decide_eq_true_iff] at hdigit
        exact .inr (.inl hdigit)
      · decide
      · decide
  refine ⟨?_, ?_, ?_⟩
  · have hupper : ¬ ('A'.val ≤ c.val ∧ c.val ≤ 'Z'.val) := by
      rintro ⟨hlow, hhigh⟩
      have hlow' : 65 ≤ c.toNat := hlow
      have hhigh' : c.toNat ≤ 90 := hhigh
      omega
    exact dif_neg hupper
  · rintro rfl
    revert hcode
    decide
  · rintro rfl
    revert hcode
    decide

section
variable {pattern name : CStr}

theorem IsPortablePattern.lower_part (h : IsPortablePattern pattern) {part : CStr}
    (hpart : part ⊆ pattern) : lower part = part :=
  lower_eq_self fun _ hc => (toLower_of_isPortableLetter (h.letters _ (hpart hc))).1

theorem IsPortableName.lower_eq (h : IsPortableName name) : lower name = name :=
  lower_eq_self fun c hc => (h c hc).1

theorem matchTarget_of_portable (h : IsPortablePattern pattern) (hname : IsPortableName name) :
    Windows.matchTarget pattern name = name ∧ matchTarget pattern name = name := by
  have hslash : '/' ∉ pattern := fun hc => (toLower_of_isPortableLetter (h.letters _ hc)).2.1 rfl
  have hback : '\\' ∉ pattern := fun hc => (toLower_of_isPortableLetter (h.letters _ hc)).2.2 rfl
  have hslash' : '/' ∉ name := fun hc => (hname _ hc).2.1 rfl
  have hback' : '\\' ∉ name := fun hc => (hname _ hc).2.2 rfl
  simp [Windows.matchTarget, matchTarget, hslash, hback, afterLast_of_not_mem hslash',
    afterLast_of_not_mem hback']

theorem matchProcessPattern_eq_of_starAtEnd (h : IsPortablePattern pattern)
    (hname : IsPortableName name) (hend : StarAtEnd pattern) :
    Windows.matchProcessPattern pattern name = matchProcessPattern pattern name := by
  obtain ⟨htarget, htarget'⟩ := matchTarget_of_portable h hname
  rw [Bool.eq_iff_iff, Windows.matchProcessPattern_of_count_iff h.count,
    matchProcessPattern_of_starAtEnd_iff hend, htarget, htarget']

/-- With a star in the middle the platforms differ on the names that the star covers. -/
theorem matchProcessPattern_eq_middle_iff {before behind : CStr}
    (h : IsPortablePattern (before ++ '*' :: behind)) (hname : IsPortableName name)
    (hbefore : before ≠ []) (hbehind : behind ≠ []) (hstar : '*' ∉ before)
    (hstar' : '*' ∉ behind) :
    Windows.matchProcessPattern (before ++ '*' :: behind) name =
        matchProcessPattern (before ++ '*' :: behind) name ↔
      ¬ (before <+: name ∧ behind <:+ name ∧ before.length + behind.length ≤ name.length ∧
        name ≠ before ++ '*' :: behind) := by
  obtain ⟨htarget, htarget'⟩ := matchTarget_of_portable h hname
  have hlower : lower before = before := h.lower_part (List.subset_append_left _ _)
  have hlower' : lower behind = behind :=
    h.lower_part fun c hc => List.mem_append_right _ (List.mem_cons_of_mem _ hc)
  have hwhole : lower (before ++ '*' :: behind) = before ++ '*' :: behind :=
    h.lower_part (List.Subset.refl _)
  rw [Bool.eq_iff_iff, Windows.matchProcessPattern_star_iff hstar hstar',
    matchProcessPattern_middle hbefore hbehind hstar hstar', htarget, htarget', sameIgnoringCase,
    decide_eq_true_iff, hwhole, hlower, hlower', hname.lower_eq]
  have hself (heq : before ++ '*' :: behind = name) :
      before <+: name ∧ behind <:+ name ∧ before.length + behind.length ≤ name.length := by
    subst heq
    refine ⟨List.prefix_append _ _, ⟨before ++ ['*'], by simp⟩, ?_⟩
    rw [List.length_append, List.length_cons]
    omega
  rw [ne_comm]
  tauto

/-- The two matchers agree exactly on the names that a star inside the pattern does not cover. -/
theorem matchProcessPattern_eq_iff (h : IsPortablePattern pattern)
    (hname : IsPortableName name) :
    Windows.matchProcessPattern pattern name = matchProcessPattern pattern name ↔
      ¬ CoveredByMiddle pattern name := by
  by_cases hend : StarAtEnd pattern
  · rw [iff_true_left (matchProcessPattern_eq_of_starAtEnd h hname hend)]
    rintro ⟨hhead, hlast, hmem, -⟩
    exact (hend.2 hmem).elim hhead hlast
  · obtain ⟨hmem, hhead, hlast⟩ : '*' ∈ pattern ∧ pattern.head? ≠ some '*' ∧
        pattern.getLast? ≠ some '*' := by
      simpa [StarAtEnd, h.count] using hend
    obtain ⟨before, behind, rfl, hstar, hstar'⟩ := Glob.exists_cut_at_star hmem h.count
    have hbefore := mt (@Glob.head?_star_iff _ '*' before behind hstar).mpr hhead
    have hbehind := mt (@Glob.getLast?_star_iff _ '*' before behind hstar').mpr hlast
    rw [matchProcessPattern_eq_middle_iff h hname hbefore hbehind hstar hstar', CoveredByMiddle,
      takeWhile_ne_append hstar, dropWhile_ne_append hstar, List.drop_succ_cons, List.drop_zero,
      List.length_append, List.length_cons, ← add_assoc, Nat.add_le_add_iff_right]
    tauto

theorem isPortablePattern_of_all (hne : pattern ≠ []) (hcount : pattern.count '*' ≤ 1)
    (h : pattern.all (fun c => c = '*' || IsPortableLetter c) = true) :
    IsPortablePattern pattern :=
  ⟨hne, fun c hc => by simpa using List.all_eq_true.mp h c hc, hcount⟩

theorem isPortableName_of_all
    (h : name.all (fun c => c.toLower = c ∧ c ≠ '/' ∧ c ≠ '\\') = true) :
    IsPortableName name :=
  fun c hc => by simpa using List.all_eq_true.mp h c hc

/-- The platforms agree on a pattern with its star at the end. -/
theorem matchProcessPattern_eq_fire :
    Windows.matchProcessPattern "fire*".toList "firefox.bin".toList =
      matchProcessPattern "fire*".toList "firefox.bin".toList :=
  (matchProcessPattern_eq_iff (isPortablePattern_of_all (by decide) (by decide) (by decide))
    (isPortableName_of_all (by decide))).mpr (by decide)

/-- Only the Windows engine finds the program. -/
theorem matchProcessPattern_ne_middle :
    IsPortablePattern "fire*.bin".toList ∧ IsPortableName "firefox.bin".toList ∧
    Windows.matchProcessPattern "fire*.bin".toList "firefox.bin".toList = true ∧
    matchProcessPattern "fire*.bin".toList "firefox.bin".toList = false :=
  ⟨isPortablePattern_of_all (by decide) (by decide) (by decide),
    isPortableName_of_all (by decide), by decide, by decide⟩

end

end ProxyTun.Linux
