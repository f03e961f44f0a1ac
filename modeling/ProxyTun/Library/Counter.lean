import Mathlib.Data.List.Infix
import Mathlib.Data.List.Count

/-!
# Counters that stop at zero

A counter goes up and down by one, and a move down does nothing at zero. Where it ends is
bounded by what its moves add up to, from any point of time on.
-/
namespace ProxyTun.Library

variable {α : Type*} [DecidableEq α] (up down : α)

def move (n : ℕ) (m : α) : ℕ := if m = up then n + 1 else if m = down then n - 1 else n

def level (n : ℕ) (moves : List α) : ℕ := moves.foldl (move up down) n

@[simp] theorem level_nil (n : ℕ) : level up down n [] = n := rfl

@[simp] theorem level_cons (n : ℕ) (m : α) (moves : List α) :
    level up down n (m :: moves) = level up down (move up down n m) moves := rfl

variable {up down}

/-- The counter ends at `k` at most if and only if all its moves together, from where it was, do
not lead beyond `k`, and neither do its last moves from zero. -/
theorem level_le_iff (h : up ≠ down) (n k : ℕ) (moves : List α) :
    level up down n moves ≤ k ↔
      n + moves.count up ≤ moves.count down + k ∧
        ∀ tail, tail <:+ moves → tail.count up ≤ tail.count down + k := by
  induction moves generalizing n with
  | nil => simp
  | cons m moves ih =>
    have hwhole : (∀ tail, tail <:+ m :: moves → tail.count up ≤ tail.count down + k) ↔
        (m :: moves).count up ≤ (m :: moves).count down + k ∧
          ∀ tail, tail <:+ moves → tail.count up ≤ tail.count down + k := by
      simp only [List.suffix_cons_iff, forall_eq_or_imp]
    have hself : (∀ tail, tail <:+ moves → tail.count up ≤ tail.count down + k) →
        moves.count up ≤ moves.count down + k := fun h => h moves (List.suffix_refl moves)
    rw [level_cons, ih, hwhole]
    by_cases hup : m = up
    · subst hup
      rw [move, if_pos rfl, List.count_cons_self, List.count_cons_of_ne h]
      constructor
      · rintro ⟨hall, htails⟩
        exact ⟨by omega, by omega, htails⟩
      · rintro ⟨hall, -, htails⟩
        exact ⟨by omega, htails⟩
    · by_cases hdown : m = down
      · subst hdown
        rw [move, if_neg hup, if_pos rfl, List.count_cons_self, List.count_cons_of_ne hup]
        constructor
        · rintro ⟨hall, htails⟩
          exact ⟨by omega, by omega, htails⟩
        · rintro ⟨hall, -, htails⟩
          have htail := hself htails
          exact ⟨by omega, htails⟩
      · rw [move, if_neg hup, if_neg hdown, List.count_cons_of_ne hup, List.count_cons_of_ne hdown]
        constructor
        · rintro ⟨hall, htails⟩
          exact ⟨hall, hself htails, htails⟩
        · rintro ⟨hall, -, htails⟩
          exact ⟨hall, htails⟩

end ProxyTun.Library
