import ProxyTun.Core.Filters

/-!
# Port lists on Windows

`atoi` reads every token as some number, so that a malformed token may name a port.
-/
namespace ProxyTun.Windows

def IsPortNumber (text : CStr) : Prop := IsNumber text ∧ digitsValue text ≤ 65535

/-- The tokens that the documentation knows: a star, a port, or a range of ports. -/
def IsPortToken (token : CStr) : Prop :=
  token = ['*'] ∨ IsPortNumber token ∨
    ∃ first last, token = first ++ '-' :: last ∧ IsPortNumber first ∧ IsPortNumber last

/-- The ports that such a token stands for. -/
def NamesPort (token : CStr) (port : Port) : Prop :=
  token = ['*'] ∨ IsPortNumber token ∧ digitsValue token = port.toNat ∨
    ∃ first last, token = first ++ '-' :: last ∧ IsPortNumber first ∧ IsPortNumber last ∧
      digitsValue first ≤ port.toNat ∧ port.toNat ≤ digitsValue last

/-- The numbers that `atoi` reads of a token, at its beginning and behind its first dash, take in
the port. -/
def ReadsPort (token : CStr) (port : Port) : Prop :=
  if '-' ∈ token then
    atoi token ≤ port.toNat ∧ port.toNat ≤ atoi ((token.dropWhile (· != '-')).drop 1)
  else atoi token = port.toNat

theorem NamesPort.isPortToken {token : CStr} {port : Port} (h : NamesPort token port) :
    IsPortToken token := by
  rcases h with hstar | ⟨hnumber, -⟩ | ⟨first, last, htoken, hfirst, hlast, -⟩
  · exact .inl hstar
  · exact .inr (.inl hnumber)
  · exact .inr (.inr ⟨first, last, htoken, hfirst, hlast⟩)

theorem matchPortPattern_iff (token : CStr) (port : Port) :
    matchPortPattern token port = true ↔ token = ['*'] ∨ ReadsPort token port := by
  rw [matchPortPattern, matchPortWith, Bool.or_eq_true_iff, decide_eq_true_iff, ReadsPort]
  apply or_congr_right
  by_cases hdash : '-' ∈ token
  · simp [hdash]
  · simp [hdash]

theorem IsPortNumber.small {text : CStr} (h : IsPortNumber text) :
    digitsValue text < 2147483648 := by
  have hport := h.2
  omega

theorem atoi_number {text : CStr} (h : IsPortNumber text) : atoi text = digitsValue text := by
  have hread := @IsNumber.atoi_append text h.1 [] (fun c hc => by cases hc) h.small
  rwa [List.append_nil] at hread

theorem readsPort_number {token : CStr} (h : IsPortNumber token) (port : Port) :
    ReadsPort token port ↔ digitsValue token = port.toNat := by
  have hdash : '-' ∉ token := h.1.not_mem rfl
  rw [ReadsPort, if_neg hdash, atoi_number h]
  exact Int.natCast_inj

theorem readsPort_range {first last : CStr} (hfirst : IsPortNumber first)
    (hlast : IsPortNumber last) (port : Port) :
    ReadsPort (first ++ '-' :: last) port ↔
      digitsValue first ≤ port.toNat ∧ port.toNat ≤ digitsValue last := by
  have hplain : '-' ∉ first := hfirst.1.not_mem rfl
  have hlow : atoi (first ++ '-' :: last) = digitsValue first := by
    apply hfirst.1.atoi_append ?_ hfirst.small
    rintro c ⟨⟩
    rfl
  rw [ReadsPort, if_pos (by simp), dropWhile_ne_append hplain, List.drop_succ_cons, List.drop_zero,
    hlow, atoi_number hlast, Int.ofNat_le, Int.ofNat_le]

theorem range_inj {first last first' last' : CStr} (hfirst : IsPortNumber first)
    (hfirst' : IsPortNumber first') (h : first ++ '-' :: last = first' ++ '-' :: last') :
    first = first' ∧ last = last' := by
  have hplain : '-' ∉ first := hfirst.1.not_mem rfl
  have hplain' : '-' ∉ first' := hfirst'.1.not_mem rfl
  have hstart : first = first' := by
    rw [← takeWhile_ne_append hplain last, h, takeWhile_ne_append hplain']
  subst hstart
  simpa using h

theorem readsPort_iff {token : CStr} (h : IsPortToken token) (hstar : token ≠ ['*'])
    (port : Port) : ReadsPort token port ↔ NamesPort token port := by
  rcases h with hall | hnumber | ⟨first, last, rfl, hfirst, hlast⟩
  · exact absurd hall hstar
  · have hdash : '-' ∉ token := hnumber.1.not_mem rfl
    rw [readsPort_number hnumber]
    constructor
    · intro heq
      exact .inr (.inl ⟨hnumber, heq⟩)
    · rintro (hall | ⟨-, heq⟩ | ⟨first, last, rfl, -⟩)
      · exact absurd hall hstar
      · exact heq
      · exact absurd (by simp) hdash
  · rw [readsPort_range hfirst hlast]
    constructor
    · intro hrange
      exact .inr (.inr ⟨first, last, rfl, hfirst, hlast, hrange⟩)
    · rintro (hall | ⟨hnumber, -⟩ | ⟨first', last', htoken, hfirst', -, hrange⟩)
      · exact absurd hall hstar
      · exact absurd (by simp) (hnumber.1.not_mem (c := '-') rfl)
      · obtain ⟨rfl, rfl⟩ := range_inj hfirst hfirst' htoken
        exact hrange

theorem matchPortPattern_wellFormed {token : CStr} (h : IsPortToken token) (port : Port) :
    matchPortPattern token port = true ↔ NamesPort token port := by
  rw [matchPortPattern_iff]
  by_cases hstar : token = ['*']
  · exact iff_of_true (.inl hstar) (.inl hstar)
  · rw [or_iff_right hstar, readsPort_iff h hstar]

/-- A list matches the ports that its tokens stand for if and only if a token stands for the port,
or no malformed token is read as numbers that take it in. -/
theorem matchPortList_exact_iff {list : CStr} (hne : list ≠ []) (port : Port) :
    (matchPortList list port = true ↔
        ∃ token ∈ strtok [',', ';'] list, NamesPort (skipWhitespace token) port) ↔
      (∃ token ∈ strtok [',', ';'] list, NamesPort (skipWhitespace token) port) ∨
        ∀ token ∈ strtok [',', ';'] list, ¬ IsPortToken (skipWhitespace token) →
          ¬ ReadsPort (skipWhitespace token) port := by
  have hlist : matchPortList list port = true ↔
      ∃ token ∈ strtok [',', ';'] list, matchPortPattern (skipWhitespace token) port = true := by
    rw [matchPortList, parseTokenList_iff (by decide) rfl, or_iff_right hne]
  rw [hlist]
  constructor
  · intro hexact
    by_cases hnames : ∃ token ∈ strtok [',', ';'] list, NamesPort (skipWhitespace token) port
    · exact .inl hnames
    · right
      intro token htoken _ hreads
      exact hnames (hexact.mp ⟨token, htoken, (matchPortPattern_iff _ port).mpr (.inr hreads)⟩)
  · intro h
    constructor
    · rintro ⟨token, htoken, hmatch⟩
      by_cases hform : IsPortToken (skipWhitespace token)
      · exact ⟨token, htoken, (matchPortPattern_wellFormed hform port).mp hmatch⟩
      · rcases h with hnames | hnone
        · exact hnames
        · rcases (matchPortPattern_iff _ port).mp hmatch with hstar | hreads
          · exact absurd (.inl hstar) hform
          · exact absurd hreads (hnone token htoken hform)
    · rintro ⟨token, htoken, hnames⟩
      exact ⟨token, htoken, (matchPortPattern_wellFormed hnames.isPortToken port).mpr hnames⟩

theorem matchPortList_exact_web : matchPortList "80;443".toList 443 = true ↔
    ∃ token ∈ strtok [',', ';'] "80;443".toList, NamesPort (skipWhitespace token) 443 := by
  refine (matchPortList_exact_iff (by decide) 443).mpr (.inl ⟨"443".toList, by decide, ?_⟩)
  have hnumber : IsPortNumber "443".toList :=
    ⟨⟨by decide, List.all_eq_true.mp (by decide)⟩, by decide⟩
  exact .inr (.inl ⟨hnumber, rfl⟩)

/-- A name stands for no port, and a dash in front of a port opens a range from 0. -/
theorem matchPortList_malformed :
    matchPortList "http".toList 0 = true ∧ matchPortList "-80".toList 22 = true ∧
    ¬ (∃ token ∈ strtok [',', ';'] "http".toList, NamesPort (skipWhitespace token) 0) ∧
    ¬ ∃ token ∈ strtok [',', ';'] "-80".toList, NamesPort (skipWhitespace token) 22 := by
  refine ⟨by decide, by decide, ?_, ?_⟩
  · rintro ⟨token, htoken, hnames⟩
    have htokens : strtok [',', ';'] "http".toList = ["http".toList] := by decide
    rw [htokens, List.mem_singleton] at htoken
    rw [htoken, show skipWhitespace "http".toList = "http".toList by decide] at hnames
    rcases hnames with hstar | ⟨hnumber, -⟩ | ⟨first, last, hrange, -⟩
    · revert hstar
      decide
    · exact absurd (hnumber.1.digits 'h' (by decide)) (by decide)
    · have hdash : '-' ∈ "http".toList := by simp [hrange]
      revert hdash
      decide
  · rintro ⟨token, htoken, hnames⟩
    have htokens : strtok [',', ';'] "-80".toList = ["-80".toList] := by decide
    rw [htokens, List.mem_singleton] at htoken
    rw [htoken, show skipWhitespace "-80".toList = "-80".toList by decide] at hnames
    rcases hnames with hstar | ⟨hnumber, -⟩ | ⟨first, last, hrange, hfirst, -⟩
    · revert hstar
      decide
    · exact absurd (hnumber.1.digits '-' (by decide)) (by decide)
    · have hempty := takeWhile_ne_append (hfirst.1.not_mem (c := '-') rfl) last
      rw [← hrange] at hempty
      exact hfirst.1.nonempty hempty.symm

end ProxyTun.Windows
