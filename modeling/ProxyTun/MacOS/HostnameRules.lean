import ProxyTun.MacOS.RuleDecision

/-!
# Rules by hostname

The host filter of a rule takes an IP address, a range of addresses or the name of a host. A
name goes through the comparison that is made for addresses: a dash makes it a range, and
without one it needs four labels, which are compared as they are spelled.
-/
namespace ProxyTun.MacOS

/-- The two ends of the range of addresses that the item stands for. -/
def IsAddressRange (item : CStr) : Prop :=
  ∃ first last, components ['-'] item = [first, last] ∧
    (ipToInteger (trimmingCharacters isWhitespace first)).isSome ∧
    (ipToInteger (trimmingCharacters isWhitespace last)).isSome

/-- The labels of a name, which are the octets of an address. -/
def labels (text : CStr) : List CStr := components ['.'] text

/-- An item that is neither an address, nor a pattern or a range of addresses. -/
structure IsHostname (item : CStr) : Prop where
  nonempty : item ≠ []
  notWildcard : ∀ label ∈ labels item, label ≠ ['*']
  notRange : ¬ IsAddressRange item
  notAddress : ¬ ((labels item).length = 4 ∧ ∀ label ∈ labels item, IsNumber label)

theorem labels_injective : Function.Injective labels := by
  intro text text' h
  rw [labels, labels, components_dot, components_dot] at h
  have hjoin : ∀ t : CStr, ['.'].intercalate (t.splitOn '.') = t := fun t =>
    List.intercalate_splitOn '.'
  rw [← hjoin text, h, hjoin]

theorem all_zip_eq {octets octets' : List CStr} (hstar : ∀ octet ∈ octets, octet ≠ ['*'])
    (hlength : octets.length = octets'.length) :
    ((octets.zip octets').all fun (p, o) => p = ['*'] || p = o) = true ↔ octets = octets' := by
  induction octets generalizing octets' with
  | nil =>
    cases octets' with
    | nil => simp
    | cons => cases hlength
  | cons octet octets ih =>
    cases octets' with
    | nil => cases hlength
    | cons octet' octets' =>
      have hoctet : octet ≠ ['*'] := hstar octet List.mem_cons_self
      have hrest := ih (fun o ho => hstar o (List.mem_cons_of_mem octet ho))
        (Nat.succ.inj hlength)
      rw [List.zip_cons_cons, List.all_cons, Bool.and_eq_true, hrest, List.cons_eq_cons]
      simp [hoctet]

theorem matchIPPattern_dash {item : CStr} (h : IsHostname item) (hdash : '-' ∈ item)
    (ipString : CStr) : matchIPPattern item ipString = false := by
  have hstar : item ≠ ['*'] := by
    rintro rfl
    revert hdash
    decide
  rw [matchIPPattern, if_neg (by simp [h.nonempty, hstar]), if_pos (by simpa using hdash)]
  split
  · rename_i first last hparts
    split
    · rename_i start stop target hstart hstop _
      exact absurd ⟨first, last, hparts, by simp [hstart], by simp [hstop]⟩ h.notRange
    · rfl
  · rfl

/-- A hostname matches one spelling of itself, and that only with four labels and no dash. -/
theorem matchIPPattern_hostname {item : CStr} (h : IsHostname item) (ipString : CStr) :
    matchIPPattern item ipString = true ↔
      item = ipString ∧ (labels item).length = 4 ∧ '-' ∉ item := by
  by_cases hdash : '-' ∈ item
  · simp [matchIPPattern_dash h hdash, hdash]
  · have hstar : item ≠ ['*'] := by
      rintro rfl
      exact h.notWildcard ['*'] (by decide) rfl
    rw [matchIPPattern, if_neg (by simp [h.nonempty, hstar]), if_neg (by simpa using hdash)]
    change (if (labels item).length ≠ 4 || (labels ipString).length ≠ 4 then false
      else ((labels item).zip (labels ipString)).all fun (p, o) => p = ['*'] || p = o) = true ↔ _
    by_cases hlength : (labels item).length = 4 ∧ (labels ipString).length = 4
    · rw [if_neg (by simp [hlength]), all_zip_eq h.notWildcard (hlength.1.trans hlength.2.symm),
        labels_injective.eq_iff]
      simp [hlength.1, hdash]
    · rw [if_pos (by simpa [imp_iff_not_or] using hlength)]
      constructor
      · intro hfalse
        cases hfalse
      · rintro ⟨rfl, hfour, -⟩
        exact absurd ⟨hfour, hfour⟩ hlength

theorem matchesIP_eq_matchIPPattern {rule : ProxyRule} {item : CStr}
    (hitem : ListField.targetHosts.items rule.targetHosts = [item]) (ipString : CStr) :
    rule.matchesIP ipString = matchIPPattern item ipString := by
  have hlist := matchesList_eq_any lower .targetHosts rule.targetHosts ⟨[], ipString, 0⟩
  rw [hitem, List.any_cons, List.any_nil, Bool.or_false] at hlist
  exact hlist

/-- The host filter of a rule for a hostname matches exactly the names that are equal to it
ignoring case if and only if the destination is another name, or it is spelled like the item and
has four labels and no dash. -/
theorem matchesIP_hostname (lowercased : CStr → CStr) (rule : ProxyRule) (item destination : CStr)
    (hitem : ListField.targetHosts.items rule.targetHosts = [item]) (h : IsHostname item) :
    (rule.matchesIP destination = true ↔ lowercased item = lowercased destination) ↔
      (lowercased item = lowercased destination →
        item = destination ∧ (labels item).length = 4 ∧ '-' ∉ item) := by
  rw [matchesIP_eq_matchIPPattern hitem, matchIPPattern_hostname h]
  constructor
  · exact fun hiff => hiff.mpr
  · intro hmatch
    constructor
    · rintro ⟨rfl, -, -⟩
      rfl
    · exact hmatch

/-- A rule that lets the flows of every process to a host through. -/
def directRule (targetHosts : CStr) : ProxyRule where
  ruleId := 1
  processNames := ['*']
  targetHosts := targetHosts
  targetPorts := "443".toList
  ruleProtocol := .tcp
  action := .direct
  enabled := true

theorem isHostname_updates : IsHostname "eu.updates.example.com".toList where
  nonempty := by decide
  notWildcard := by decide
  notRange := by
    rintro ⟨first, last, hparts, -, -⟩
    have hone : components ['-'] "eu.updates.example.com".toList =
        ["eu.updates.example.com".toList] := by decide
    rw [hone] at hparts
    cases hparts
  notAddress := by
    rintro ⟨-, hnumbers⟩
    exact absurd ((hnumbers "eu".toList (by decide)).digits 'e' (by decide)) (by decide)

theorem matchesIP_hostname_updates :
    (directRule "eu.updates.example.com".toList).matchesIP "eu.updates.example.com".toList =
      true := by
  have hiff := (matchesIP_hostname lower (directRule "eu.updates.example.com".toList)
    "eu.updates.example.com".toList "eu.updates.example.com".toList (by decide)
    isHostname_updates).mpr (fun _ => ⟨rfl, by decide, by decide⟩)
  exact hiff.mpr rfl

/-- The rule for a host of three labels does not apply to that host. -/
theorem matchesIP_trustedDomain :
    ListField.targetHosts.items (directRule "trusted.example.com".toList).targetHosts =
      ["trusted.example.com".toList] ∧
    IsHostname "trusted.example.com".toList ∧
    lower "trusted.example.com".toList = lower "trusted.example.com".toList ∧
    (directRule "trusted.example.com".toList).matchesIP "trusted.example.com".toList = false := by
  refine ⟨by decide, ⟨by decide, by decide, ?_, ?_⟩, rfl, by decide⟩
  · rintro ⟨first, last, hparts, -, -⟩
    have hone : components ['-'] "trusted.example.com".toList =
        ["trusted.example.com".toList] := by decide
    rw [hone] at hparts
    cases hparts
  · rintro ⟨hlength, -⟩
    revert hlength
    decide

end ProxyTun.MacOS
