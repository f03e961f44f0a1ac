import Mathlib.Data.List.Nodup
import Mathlib.Logic.Function.Basic
import Mathlib.Tactic.SplitIfs

/-!
# Handles in variables

A program keeps what it has opened in variables. Handles are numbered as they are opened. A
variable that is overwritten before its handle is closed loses the handle.
-/
namespace ProxyTun.Library

structure Handles (V : Type*) where
  held : V → Option ℕ
  opened : ℕ
  closed : List ℕ
  lost : List ℕ

namespace Handles

variable {V : Type*} [DecidableEq V]

def empty : Handles V := ⟨fun _ => none, 0, [], []⟩

/-- The variable is assigned what an attempt to open something yields. -/
def acquire (v : V) (ok : Bool) (s : Handles V) : Handles V where
  held := Function.update s.held v (if ok then some s.opened else none)
  opened := if ok then s.opened + 1 else s.opened
  closed := s.closed
  lost := s.lost ++ (s.held v).toList

/-- What the variable holds is closed, and the variable is cleared. -/
def close (v : V) (s : Handles V) : Handles V where
  held := Function.update s.held v none
  opened := s.opened
  closed := s.closed ++ (s.held v).toList
  lost := s.lost

/-- What one variable holds goes over to another. -/
def move (v w : V) (s : Handles V) : Handles V where
  held := Function.update (Function.update s.held v none) w (s.held v)
  opened := s.opened
  closed := s.closed
  lost := s.lost ++ (s.held w).toList

/-- The variable goes out of scope with what it holds. -/
def leave (v : V) (s : Handles V) : Handles V where
  held := Function.update s.held v none
  opened := s.opened
  closed := s.closed
  lost := s.lost ++ (s.held v).toList

omit [DecidableEq V] in
/-- The variable holds a handle that was not closed. -/
def isOpen (v : V) (s : Handles V) : Bool := (s.held v).any fun h => h ∉ s.closed

omit [DecidableEq V] in
/-- The handles that were opened and not closed. -/
def unclosed (s : Handles V) : List ℕ := (List.range s.opened).filter fun h => h ∉ s.closed

def Clear (s : Handles V) : Prop := ∀ v, s.held v = none

/-- Nothing is lost: each handle was closed once, or one variable holds it. -/
structure Exact (s : Handles V) : Prop where
  lost : s.lost = []
  held_lt : ∀ v h, s.held v = some h → h < s.opened
  held_unique : ∀ v w h, s.held v = some h → s.held w = some h → v = w
  held_open : ∀ v h, s.held v = some h → h ∉ s.closed
  closed_nodup : s.closed.Nodup
  closed_lt : ∀ h ∈ s.closed, h < s.opened
  accounted : ∀ h < s.opened, h ∈ s.closed ∨ ∃ v, s.held v = some h

@[simp] theorem held_acquire_self (v : V) (ok : Bool) (s : Handles V) :
    (s.acquire v ok).held v = if ok then some s.opened else none := Function.update_self ..

theorem held_acquire_of_ne {v w : V} (h : w ≠ v) (ok : Bool) (s : Handles V) :
    (s.acquire v ok).held w = s.held w := Function.update_of_ne h ..

@[simp] theorem held_close_self (v : V) (s : Handles V) : (s.close v).held v = none :=
  Function.update_self ..

theorem held_close_of_ne {v w : V} (h : w ≠ v) (s : Handles V) :
    (s.close v).held w = s.held w := Function.update_of_ne h ..

@[simp] theorem lost_close (v : V) (s : Handles V) : (s.close v).lost = s.lost := rfl

theorem lost_acquire {v : V} {s : Handles V} (h : s.held v = none) (ok : Bool) :
    (s.acquire v ok).lost = s.lost := by
  rw [acquire, h]
  exact List.append_nil _

theorem Clear.acquire {s : Handles V} (hs : s.Clear) (v : V) : (s.acquire v false).Clear := by
  intro w
  by_cases hw : w = v
  · subst hw
    exact held_acquire_self w false s
  · exact (held_acquire_of_ne hw false s).trans (hs w)

theorem Clear.acquire_close {s : Handles V} (hs : s.Clear) (v : V) (ok : Bool) :
    ((s.acquire v ok).close v).Clear := by
  intro w
  by_cases hw : w = v
  · subst hw
    exact held_close_self w _
  · exact (held_close_of_ne hw _).trans ((held_acquire_of_ne hw ok s).trans (hs w))

@[simp] theorem unclosed_leave (v : V) (s : Handles V) : (s.leave v).unclosed = s.unclosed := rfl

theorem held_close_eq_some {v w : V} {s : Handles V} {h : ℕ} :
    (s.close v).held w = some h ↔ w ≠ v ∧ s.held w = some h := by
  by_cases hw : w = v
  · subst hw
    simp
  · simp [held_close_of_ne hw, hw]

theorem held_move_eq_some {v w x : V} {s : Handles V} {h : ℕ} :
    (s.move v w).held x = some h ↔
      x = w ∧ s.held v = some h ∨ x ≠ w ∧ x ≠ v ∧ s.held x = some h := by
  by_cases hw : x = w
  · subst hw
    simp [move]
  · by_cases hv : x = v
    · subst hv
      simp [move, hw]
    · simp [move, hw, hv]

omit [DecidableEq V] in
theorem exact_empty : (empty : Handles V).Exact where
  lost := rfl
  held_lt := nofun
  held_unique := nofun
  held_open := nofun
  closed_nodup := List.nodup_nil
  closed_lt := nofun
  accounted := nofun

/-- An attempt to open something for a variable that holds nothing keeps the account. -/
theorem Exact.acquire {s : Handles V} (hs : s.Exact) {v : V} (hv : s.held v = none) (ok : Bool) :
    (s.acquire v ok).Exact := by
  cases ok with
  | false =>
    have hsame : s.acquire v false = s := by
      have hheld : Function.update s.held v none = s.held := by
        rw [← hv]
        exact Function.update_eq_self v s.held
      simp only [Handles.acquire, hv, hheld, Option.toList_none, List.append_nil,
        Bool.false_eq_true, if_false]
    rw [hsame]
    exact hs
  | true =>
    have hheld : ∀ w h, (s.acquire v true).held w = some h →
        w = v ∧ h = s.opened ∨ w ≠ v ∧ s.held w = some h := by
      intro w h hw
      by_cases hwv : w = v
      · subst hwv
        rw [held_acquire_self] at hw
        exact .inl ⟨rfl, (Option.some.inj hw).symm⟩
      · rw [held_acquire_of_ne hwv] at hw
        exact .inr ⟨hwv, hw⟩
    exact {
      lost := (lost_acquire hv true).trans hs.lost
      held_lt := by
        intro w h hw
        change h < s.opened + 1
        rcases hheld w h hw with ⟨-, rfl⟩ | ⟨-, hw⟩
        · exact Nat.lt_succ_self _
        · exact Nat.lt_succ_of_lt (hs.held_lt w h hw)
      held_unique := by
        intro w w' h hw hw'
        rcases hheld w h hw with ⟨hwv, hnew⟩ | ⟨-, hold⟩
        · rcases hheld w' h hw' with ⟨hwv', -⟩ | ⟨-, hold'⟩
          · rw [hwv, hwv']
          · exact absurd hnew (Nat.ne_of_lt (hs.held_lt w' h hold'))
        · rcases hheld w' h hw' with ⟨-, hnew⟩ | ⟨-, hold'⟩
          · exact absurd hnew (Nat.ne_of_lt (hs.held_lt w h hold))
          · exact hs.held_unique w w' h hold hold'
      held_open := by
        intro w h hw
        rcases hheld w h hw with ⟨-, rfl⟩ | ⟨-, hw⟩
        · exact fun hclosed => Nat.lt_irrefl _ (hs.closed_lt _ hclosed)
        · exact hs.held_open w h hw
      closed_nodup := hs.closed_nodup
      closed_lt := fun h hclosed => Nat.lt_succ_of_lt (hs.closed_lt h hclosed)
      accounted := by
        intro h hlt
        rcases Nat.lt_succ_iff_lt_or_eq.mp hlt with hlt | rfl
        · refine (hs.accounted h hlt).imp_right ?_
          rintro ⟨w, hw⟩
          have hwv : w ≠ v := by
            rintro rfl
            rw [hv] at hw
            cases hw
          exact ⟨w, (held_acquire_of_ne hwv true s).trans hw⟩
        · exact .inr ⟨v, held_acquire_self v true s⟩ }

theorem Exact.close {s : Handles V} (hs : s.Exact) (v : V) : (s.close v).Exact := by
  have hclosed : ∀ h, h ∈ (s.close v).closed ↔ h ∈ s.closed ∨ s.held v = some h := by
    intro h
    simp [Handles.close, List.mem_append, Option.mem_toList]
  exact {
    lost := hs.lost
    held_lt := fun w h hw => hs.held_lt w h (held_close_eq_some.mp hw).2
    held_unique := fun w w' h hw hw' =>
      hs.held_unique w w' h (held_close_eq_some.mp hw).2 (held_close_eq_some.mp hw').2
    held_open := by
      intro w h hw
      obtain ⟨hwv, hw⟩ := held_close_eq_some.mp hw
      rw [hclosed]
      rintro (hmem | hv)
      · exact hs.held_open w h hw hmem
      · exact hwv (hs.held_unique w v h hw hv)
    closed_nodup := by
      cases hv : s.held v with
      | none => simpa [Handles.close, hv] using hs.closed_nodup
      | some h =>
        have hopen := hs.held_open v h hv
        rw [Handles.close, hv]
        refine hs.closed_nodup.append (List.nodup_singleton h) ?_
        simpa using hopen
    closed_lt := by
      intro h hmem
      rcases (hclosed h).mp hmem with hmem | hv
      · exact hs.closed_lt h hmem
      · exact hs.held_lt v h hv
    accounted := by
      intro h hlt
      rcases hs.accounted h hlt with hmem | ⟨w, hw⟩
      · exact .inl ((hclosed h).mpr (.inl hmem))
      · by_cases hwv : w = v
        · subst hwv
          exact .inl ((hclosed h).mpr (.inr hw))
        · exact .inr ⟨w, (held_close_of_ne hwv s).trans hw⟩ }

/-- To move a handle to a variable that holds nothing keeps the account. -/
theorem Exact.move {s : Handles V} (hs : s.Exact) {v w : V} (hvw : v ≠ w)
    (hw : s.held w = none) : (s.move v w).Exact := by
  -- the variable that held the handle before the move
  have hheld : ∀ x h, (s.move v w).held x = some h →
      ∃ y, s.held y = some h ∧ (x = w ∧ y = v ∨ x ≠ w ∧ x ≠ v ∧ y = x) := by
    intro x h hx
    rcases held_move_eq_some.mp hx with ⟨rfl, hv⟩ | ⟨hxw, hxv, hx⟩
    · exact ⟨v, hv, .inl ⟨rfl, rfl⟩⟩
    · exact ⟨x, hx, .inr ⟨hxw, hxv, rfl⟩⟩
  exact {
    lost := by
      rw [Handles.move, hw]
      exact (List.append_nil _).trans hs.lost
    held_lt := by
      intro x h hx
      obtain ⟨y, hy, -⟩ := hheld x h hx
      exact hs.held_lt y h hy
    held_unique := by
      intro x x' h hx hx'
      obtain ⟨y, hy, hxy⟩ := hheld x h hx
      obtain ⟨y', hy', hxy'⟩ := hheld x' h hx'
      obtain rfl := hs.held_unique y y' h hy hy'
      rcases hxy with ⟨rfl, rfl⟩ | ⟨-, hxv, rfl⟩
      · rcases hxy' with ⟨rfl, -⟩ | ⟨-, hxv', rfl⟩
        · rfl
        · exact absurd rfl hxv'
      · rcases hxy' with ⟨-, rfl⟩ | ⟨-, -, rfl⟩
        · exact absurd rfl hxv
        · rfl
    held_open := by
      intro x h hx
      obtain ⟨y, hy, -⟩ := hheld x h hx
      exact hs.held_open y h hy
    closed_nodup := hs.closed_nodup
    closed_lt := hs.closed_lt
    accounted := by
      intro h hlt
      refine (hs.accounted h hlt).imp_right ?_
      rintro ⟨x, hx⟩
      by_cases hxv : x = v
      · subst hxv
        exact ⟨w, held_move_eq_some.mpr (.inl ⟨rfl, hx⟩)⟩
      · have hxw : x ≠ w := by
          rintro rfl
          rw [hw] at hx
          cases hx
        exact ⟨x, held_move_eq_some.mpr (.inr ⟨hxw, hxv, hx⟩)⟩ }

omit [DecidableEq V] in
theorem Exact.isOpen_iff {s : Handles V} (hs : s.Exact) (v : V) :
    s.isOpen v = true ↔ s.held v ≠ none := by
  cases hv : s.held v with
  | none => simp [isOpen, hv]
  | some h => simp [isOpen, hv, hs.held_open v h hv]

omit [DecidableEq V] in
theorem Exact.unclosed_eq_nil_iff {s : Handles V} (hs : s.Exact) : s.unclosed = [] ↔ s.Clear := by
  rw [unclosed, List.filter_eq_nil_iff]
  constructor
  · intro hclosed v
    cases hv : s.held v with
    | none => rfl
    | some h =>
      have hmem := hclosed h (List.mem_range.mpr (hs.held_lt v h hv))
      exact absurd (by simpa using hs.held_open v h hv) hmem
  · intro hclear h hlt
    have hmem : h ∈ s.closed := by
      rcases hs.accounted h (List.mem_range.mp hlt) with hmem | ⟨v, hv⟩
      · exact hmem
      · rw [hclear v] at hv
        cases hv
    simpa using hmem

omit [DecidableEq V] in
theorem Exact.unclosed_ne_nil {s : Handles V} (hs : s.Exact) {v : V} (hv : s.held v ≠ none) :
    s.unclosed ≠ [] := fun hnil => hv (hs.unclosed_eq_nil_iff.mp hnil v)

omit [DecidableEq V] in
theorem Exact.closed_once {s : Handles V} (hs : s.Exact) (hclear : s.Clear) (h : ℕ)
    (hlt : h < s.opened) : s.closed.count h = 1 := by
  rcases hs.accounted h hlt with hmem | ⟨v, hv⟩
  · exact List.count_eq_one_of_mem hs.closed_nodup hmem
  · rw [hclear v] at hv
    cases hv

/-- The account is exact, and the named variables are those that hold something. -/
structure Holds (held : V → Bool) (s : Handles V) : Prop where
  exact : s.Exact
  held_eq : ∀ v, (s.held v).isSome = held v

omit [DecidableEq V] in
theorem Holds.held_none {held : V → Bool} {s : Handles V} (h : s.Holds held) {v : V}
    (hv : held v = false) : s.held v = none := by
  rw [← Option.not_isSome_iff_eq_none, h.held_eq, hv]
  exact Bool.false_ne_true

omit [DecidableEq V] in
theorem Holds.congr {held held' : V → Bool} {s : Handles V} (h : s.Holds held)
    (hheld : ∀ v, held v = held' v) : s.Holds held' :=
  ⟨h.exact, fun v => (h.held_eq v).trans (hheld v)⟩

theorem Holds.acquire {held : V → Bool} {s : Handles V} (h : s.Holds held) {v : V}
    (hv : held v = false) (ok : Bool) : (s.acquire v ok).Holds (Function.update held v ok) where
  exact := h.exact.acquire (h.held_none hv) ok
  held_eq := by
    intro w
    by_cases hw : w = v
    · subst hw
      rw [held_acquire_self, Function.update_self]
      cases ok <;> rfl
    · rw [held_acquire_of_ne hw, Function.update_of_ne hw, h.held_eq]

theorem Holds.close {held : V → Bool} {s : Handles V} (h : s.Holds held) (v : V) :
    (s.close v).Holds (Function.update held v false) where
  exact := h.exact.close v
  held_eq := by
    intro w
    by_cases hw : w = v
    · subst hw
      rw [held_close_self, Function.update_self]
      rfl
    · rw [held_close_of_ne hw, Function.update_of_ne hw, h.held_eq]

omit [DecidableEq V] in
theorem Holds.isOpen_eq {held : V → Bool} {s : Handles V} (h : s.Holds held) (v : V) :
    s.isOpen v = held v := by
  rw [Bool.eq_iff_iff, h.exact.isOpen_iff, ← h.held_eq, Option.isSome_iff_ne_none]

end Handles
end ProxyTun.Library
