import Mathlib.Data.List.Forall2
import Mathlib.Data.List.Infix

/-!
# Glob patterns

A pattern is a list in which one letter, the star, stands for any list. The other letters stand
for the letters that are the same up to a given relation, such as equality up to case.
-/
namespace ProxyTun.Library.Glob

variable {α : Type*}

/-- The pattern matches the text. -/
inductive Matches (star : α) (same : α → α → Prop) : List α → List α → Prop where
  | nil : Matches star same [] []
  | skip {pattern text : List α} (skipped : List α) (h : Matches star same pattern text) :
    Matches star same (star :: pattern) (skipped ++ text)
  | letter {c d : α} {pattern text : List α} (hstar : c ≠ star) (hsame : same c d)
      (h : Matches star same pattern text) : Matches star same (c :: pattern) (d :: text)

variable {star : α} {same : α → α → Prop} {pattern text : List α}

theorem matches_nil_iff : Matches star same [] text ↔ text = [] := by
  constructor
  · rintro ⟨⟩
    rfl
  · rintro rfl
    exact .nil

theorem matches_star_iff :
    Matches star same (star :: pattern) text ↔
      ∃ skipped rest, text = skipped ++ rest ∧ Matches star same pattern rest := by
  constructor
  · intro h
    cases h with
    | skip skipped hrest => exact ⟨skipped, _, rfl, hrest⟩
    | letter hstar => exact absurd rfl hstar
  · rintro ⟨skipped, rest, rfl, h⟩
    exact .skip skipped h

theorem matches_letter_iff {c : α} (hc : c ≠ star) :
    Matches star same (c :: pattern) text ↔
      ∃ d rest, text = d :: rest ∧ same c d ∧ Matches star same pattern rest := by
  constructor
  · intro h
    cases h with
    | skip => exact absurd rfl hc
    | letter _ hsame hrest => exact ⟨_, _, rfl, hsame, hrest⟩
  · rintro ⟨d, rest, rfl, hsame, h⟩
    exact .letter hc hsame h

theorem matches_append_iff {letters : List α} (h : star ∉ letters) :
    Matches star same (letters ++ pattern) text ↔
      ∃ front rest, text = front ++ rest ∧ List.Forall₂ same letters front ∧
        Matches star same pattern rest := by
  induction letters generalizing text with
  | nil => simp
  | cons c letters ih =>
    obtain ⟨hc, hletters⟩ : star ≠ c ∧ star ∉ letters := by simpa using h
    rw [List.cons_append, matches_letter_iff (Ne.symm hc)]
    constructor
    · rintro ⟨d, tail, rfl, hsame, htail⟩
      obtain ⟨front, rest, rfl, hfront, hrest⟩ := (ih hletters).mp htail
      exact ⟨d :: front, rest, rfl, .cons hsame hfront, hrest⟩
    · rintro ⟨front, rest, rfl, hfront, hrest⟩
      cases hfront with
      | cons hsame hfront =>
        exact ⟨_, _, rfl, hsame, (ih hletters).mpr ⟨_, rest, rfl, hfront, hrest⟩⟩

theorem matches_iff_forall₂ (h : star ∉ pattern) :
    Matches star same pattern text ↔ List.Forall₂ same pattern text := by
  rw [← List.append_nil pattern, matches_append_iff h]
  simp [matches_nil_iff]

theorem matches_oneStar_iff {before behind : List α} (hbefore : star ∉ before)
    (hbehind : star ∉ behind) :
    Matches star same (before ++ star :: behind) text ↔
      ∃ front skipped back, text = front ++ (skipped ++ back) ∧
        List.Forall₂ same before front ∧ List.Forall₂ same behind back := by
  simp only [matches_append_iff hbefore, matches_star_iff, matches_iff_forall₂ hbehind]
  constructor
  · rintro ⟨front, rest, rfl, hfront, skipped, back, rfl, hback⟩
    exact ⟨front, skipped, back, rfl, hfront, hback⟩
  · rintro ⟨front, skipped, back, rfl, hfront, hback⟩
    exact ⟨front, _, rfl, hfront, skipped, back, rfl, hback⟩

section
variable {β : Type*} {key : α → β}

theorem forall₂_key_iff {letters letters' : List α} :
    List.Forall₂ (fun c d => key c = key d) letters letters' ↔
      letters.map key = letters'.map key := by
  rw [← List.forall₂_eq_eq_eq, List.forall₂_map_left_iff, List.forall₂_map_right_iff]

/-- Up to a key the text begins and ends as the pattern does, and is long enough for both. -/
theorem matches_oneStar_key_iff {before behind : List α} (hbefore : star ∉ before)
    (hbehind : star ∉ behind) :
    Matches star (fun c d => key c = key d) (before ++ star :: behind) text ↔
      before.map key <+: text.map key ∧ behind.map key <:+ text.map key ∧
        before.length + behind.length ≤ text.length := by
  simp only [matches_oneStar_iff hbefore hbehind, forall₂_key_iff]
  constructor
  · rintro ⟨front, skipped, back, rfl, hfront, hback⟩
    have hbefore' : before.length = front.length := by simpa using congrArg List.length hfront
    have hbehind' : behind.length = back.length := by simpa using congrArg List.length hback
    simp only [List.map_append, hfront, hback, List.length_append]
    refine ⟨List.prefix_append _ _, ?_, by omega⟩
    rw [← List.append_assoc]
    exact List.suffix_append _ _
  · rintro ⟨hfront, hback, hlength⟩
    refine ⟨text.take before.length,
      (text.drop before.length).take (text.length - before.length - behind.length),
      text.drop (text.length - behind.length), ?_, ?_, ?_⟩
    · conv_lhs => rw [← List.take_append_drop before.length text]
      congr 1
      conv_lhs => rw [← List.take_append_drop (text.length - before.length - behind.length)
        (text.drop before.length)]
      rw [List.drop_drop]
      congr 2
      omega
    · rw [List.map_take]
      simpa using List.prefix_iff_eq_take.mp hfront
    · rw [List.map_drop]
      simpa using List.suffix_iff_eq_drop.mp hback

end

theorem matches_oneStar_eq_iff {before behind : List α} (hbefore : star ∉ before)
    (hbehind : star ∉ behind) :
    Matches star (fun c d => c = d) (before ++ star :: behind) text ↔
      before <+: text ∧ behind <:+ text ∧ before.length + behind.length ≤ text.length := by
  have h := @matches_oneStar_key_iff α star text α id before behind hbefore hbehind
  simpa only [id_eq, List.map_id] using h

theorem exists_cut_at_star [DecidableEq α] (hmem : star ∈ pattern)
    (hcount : pattern.count star ≤ 1) :
    ∃ before behind, pattern = before ++ star :: behind ∧ star ∉ before ∧ star ∉ behind := by
  obtain ⟨before, behind, rfl, hbefore⟩ := List.eq_append_cons_of_mem hmem
  refine ⟨before, behind, rfl, hbefore, fun hbehind => ?_⟩
  have hpos := List.count_pos_iff.mpr hbehind
  rw [List.count_append, List.count_cons_self] at hcount
  omega

section
variable {before behind : List α}

theorem getLast?_star_iff (h : star ∉ behind) :
    (before ++ star :: behind).getLast? = some star ↔ behind = [] := by
  constructor
  · intro hlast
    by_contra hne
    rw [List.getLast?_append_of_ne_nil _ (List.cons_ne_nil _ _), List.getLast?_cons,
      List.getLast?_eq_some_getLast hne] at hlast
    have hstar : behind.getLast hne = star := Option.some.inj hlast
    exact h (hstar ▸ List.getLast_mem hne)
  · rintro rfl
    simp

theorem head?_star_iff (h : star ∉ before) :
    (before ++ star :: behind).head? = some star ↔ before = [] := by
  cases before with
  | nil => simp
  | cons c cs =>
    have hc : c ≠ star := fun heq => h (heq ▸ List.mem_cons_self)
    simp [hc]

end

end ProxyTun.Library.Glob
