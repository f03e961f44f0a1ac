import Mathlib.Data.List.Basic
import Mathlib.Data.List.Forall2

/-!
# First match with deferral

A list is searched for the first item that decides. Some items do not decide but are kept, the
first of them for the case that nothing decides.
-/
namespace ProxyTun.Library
universe u
variable {α : Type u} (decides deferred : α → Bool)

/-- The search as one pass that carries the kept item. -/
def seek : List α → Option α → Option α
  | [], saved => saved
  | item :: items, saved =>
    if decides item then some item
    else if deferred item then seek items (saved.or (some item))
    else seek items saved

def firstMatch (items : List α) : Option α := (items.find? decides).or (items.find? deferred)

theorem seek_eq (items : List α) (saved : Option α) :
    seek decides deferred items saved =
      (items.find? decides).or (saved.or (items.find? deferred)) := by
  induction items generalizing saved with
  | nil => cases saved <;> rfl
  | cons item items ih =>
    unfold seek
    cases hdecides : decides item with
    | true => simp [hdecides]
    | false =>
      cases hdeferred : deferred item with
      | true => simp [hdecides, hdeferred, ih]
      | false => simp [hdecides, hdeferred, ih]

theorem seek_none (items : List α) :
    seek decides deferred items none = firstMatch decides deferred items :=
  seek_eq decides deferred items none

theorem firstMatch_around (before : List α) (item : α) (after : List α) :
    firstMatch decides deferred (before ++ item :: after) =
      (before.find? decides).or ((bif decides item then some item else after.find? decides).or
        ((before.find? deferred).or
          (bif deferred item then some item else after.find? deferred))) := by
  simp only [firstMatch, List.find?_append, List.find?_cons, Option.or_assoc]
  cases decides item <;> cases deferred item <;> rfl

variable {decides deferred}

theorem firstMatch_move {item : α} (hitem : decides item = false) {passed : List α}
    (hpassed : ∀ other ∈ passed, deferred other = false) (before after : List α) :
    firstMatch decides deferred (before ++ item :: (passed ++ after)) =
      firstMatch decides deferred (before ++ (passed ++ item :: after)) := by
  have hnone : passed.find? deferred = none := by simpa using hpassed
  simp only [firstMatch, List.find?_append, List.find?_cons, hitem, hnone,
    Option.none_or]

theorem map_firstMatch_replace {β : Type*} {g : α → β} {item other : α}
    (hdecides : decides item = decides other) (hdeferred : deferred item = deferred other)
    (hg : g item = g other) (before after : List α) :
    (firstMatch decides deferred (before ++ item :: after)).map g =
      (firstMatch decides deferred (before ++ other :: after)).map g := by
  simp only [firstMatch_around, Option.map_or, ← hdecides, ← hdeferred]
  cases decides item <;> cases deferred item <;> simp [hg]

theorem firstMatch_of_decides {item : α} (h : decides item = true) (before after : List α) :
    firstMatch decides deferred (before ++ item :: after) =
      (before.find? decides).or (some item) := by
  rw [firstMatch_around, h, cond_true, Option.some_or]

/-- A deferred item comes behind all that decide and behind the deferred ones before it. -/
theorem firstMatch_of_deferred {item : α} (h : decides item = false) (hkept : deferred item = true)
    (before after : List α) :
    firstMatch decides deferred (before ++ item :: after) =
      (before.find? decides).or
        (((after.find? decides).or (before.find? deferred)).or (some item)) := by
  rw [firstMatch_around, h, hkept, cond_false, cond_true, Option.or_assoc]

/-- Items may be replaced by ones that are treated alike. -/
theorem firstMatch_map {g : α → α} (hdecides : ∀ item, decides (g item) = decides item)
    (hdeferred : ∀ item, deferred (g item) = deferred item) (items : List α) :
    firstMatch decides deferred (items.map g) = (firstMatch decides deferred items).map g := by
  have hd : decides ∘ g = decides := funext hdecides
  have hk : deferred ∘ g = deferred := funext hdeferred
  rw [firstMatch, List.find?_map, List.find?_map, hd, hk, ← Option.map_or, firstMatch]

/-- Each item of the second list comes behind those that are before it in the first one. -/
def Follows (items copies : List α) : Prop :=
  ∀ before item after, copies = before ++ item :: after →
    ∃ passed rest : List α, items = passed ++ item :: rest ∧ passed ⊆ before

theorem follows_nil (items : List α) : Follows items [] := by
  intro before item after h
  cases before <;> cases h

theorem Follows.append {items copies passed rest : List α} {item : α} (h : Follows items copies)
    (hitems : items = passed ++ item :: rest) (hpassed : passed ⊆ copies) :
    Follows items (copies ++ [item]) := by
  intro before other after hcopies
  rcases after.eq_nil_or_concat with rfl | ⟨after, last, rfl⟩
  · obtain ⟨rfl, hsame⟩ := List.append_inj' hcopies rfl
    obtain rfl := List.singleton_inj.mp hsame
    exact ⟨passed, rest, hitems, hpassed⟩
  · have hbefore : copies ++ [item] = (before ++ other :: after) ++ [last] := by
      rw [hcopies]
      simp
    obtain ⟨hcopies, -⟩ := List.append_inj' hbefore rfl
    exact h before other after hcopies

theorem Follows.find? {items copies : List α} (h : Follows items copies) (hall : items ⊆ copies)
    (p : α → Bool) : copies.find? p = items.find? p := by
  cases hfound : copies.find? p with
  | none =>
    rw [List.find?_eq_none] at hfound
    exact (List.find?_eq_none.mpr fun item hmem => hfound item (hall hmem)).symm
  | some item =>
    obtain ⟨hp, before, after, hcopies, hnot⟩ := List.find?_eq_some_iff_append.mp hfound
    obtain ⟨passed, rest, hitems, hpassed⟩ := h before item after hcopies
    exact (List.find?_eq_some_iff_append.mpr
      ⟨hp, passed, rest, hitems, fun other hmem => hnot other (hpassed hmem)⟩).symm

theorem Follows.firstMatch {items copies : List α} (h : Follows items copies)
    (hall : items ⊆ copies) :
    firstMatch decides deferred copies = firstMatch decides deferred items := by
  rw [Library.firstMatch, h.find? hall, h.find? hall, Library.firstMatch]

theorem map_find?_of_forall₂ {β γ : Type*} {R : α → β → Prop} {p : α → Bool} {q : β → Bool}
    {f : α → γ} {g : β → γ} {items : List α} {others : List β} (h : List.Forall₂ R items others)
    (hmatch : ∀ item ∈ items, ∀ other, R item other → q other = p item)
    (hvalue : ∀ item other, R item other → g other = f item) :
    (others.find? q).map g = (items.find? p).map f := by
  induction h with
  | nil => rfl
  | @cons item other items others hitem _ ih =>
    have hrest := ih fun item' hmem => hmatch item' (List.mem_cons_of_mem item hmem)
    rw [List.find?_cons, List.find?_cons, hmatch item List.mem_cons_self other hitem]
    cases p item with
    | true => simp [hvalue item other hitem]
    | false => exact hrest

theorem map_firstMatch_of_forall₂ {β γ : Type*} {R : β → α → Prop} {p : β → Bool}
    {f : β → γ} {g : α → γ} {others : List β} {items : List α} (h : List.Forall₂ R others items)
    (hmatch : ∀ other ∈ others, ∀ item, R other item →
      decides item = p other ∧ deferred item = false)
    (hvalue : ∀ other item, R other item → g item = f other) :
    (firstMatch decides deferred items).map g = (others.find? p).map f := by
  have hnone : items.find? deferred = none := by
    have hfind := map_find?_of_forall₂ (f := fun _ => ()) (g := fun _ => ()) h
      (fun other hother item hitem => (hmatch other hother item hitem).2) fun _ _ _ => rfl
    have hothers : others.find? (fun _ => false) = none := by simp
    rw [hothers] at hfind
    exact Option.map_eq_none_iff.mp hfind
  rw [firstMatch, hnone, Option.or_none]
  exact map_find?_of_forall₂ h (fun other hother item hitem => (hmatch other hother item hitem).1)
    hvalue

end ProxyTun.Library
