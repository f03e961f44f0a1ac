import Mathlib.Data.List.Basic
import Mathlib.Logic.Function.Basic

/-!
# Ring buffers that overwrite their oldest entry

A ring keeps a queue in a fixed number of cells, with the positions of the next read and the next
write and the number of entries. An access outside the cells stops the program. The queue it
stands for takes new entries at its end, and a full one loses the entry in front.
-/
namespace ProxyTun.Library

variable {α : Type*}

structure RingBuffer (α : Type*) where
  cells : ℕ → α
  head : ℕ
  tail : ℕ
  count : ℕ

def pushBounded (n : ℕ) (x : α) (queue : List α) : List α :=
  (if queue.length < n then queue else queue.drop 1) ++ [x]

namespace RingBuffer

/-- A ring without entries. -/
def empty (x : α) : RingBuffer α := ⟨fun _ => x, 0, 0, 0⟩

def push (n : ℕ) (x : α) (r : RingBuffer α) : Option (RingBuffer α) :=
  if r.tail < n then
    let written := { r with cells := Function.update r.cells r.tail x, tail := (r.tail + 1) % n }
    some (if r.count < n then { written with count := r.count + 1 }
      else { written with head := (r.head + 1) % n })
  else none

def pop (n : ℕ) (r : RingBuffer α) : Option (α × RingBuffer α) :=
  if r.head < n then
    some (r.cells r.head, { r with head := (r.head + 1) % n, count := r.count - 1 })
  else none

def drain (n : ℕ) : ℕ → RingBuffer α → Option (List α × RingBuffer α)
  | 0, r => some ([], r)
  | k + 1, r => (r.pop n).bind fun first => (drain n k first.2).map fun rest =>
      (first.1 :: rest.1, rest.2)

/-- The entries of the ring, from the oldest on, are the queue. -/
structure Holds (n : ℕ) (r : RingBuffer α) (queue : List α) : Prop where
  length_eq : queue.length = r.count
  count_le : r.count ≤ n
  head_lt : r.head < n
  tail_eq : r.tail = (r.head + r.count) % n
  cells_eq : ∀ i (h : i < queue.length), r.cells ((r.head + i) % n) = queue[i]

variable {n : ℕ} {r : RingBuffer α} {queue : List α}

theorem add_mod_eq_ite {h i : ℕ} (hh : h < n) (hi : i ≤ n) :
    (h + i) % n = if h + i < n then h + i else h + i - n := by
  split_ifs with hlt
  · exact Nat.mod_eq_of_lt hlt
  · rw [Nat.mod_eq_sub_mod (by omega)]
    exact Nat.mod_eq_of_lt (by omega)

/-- Distances of less than a round lead to distinct cells. -/
theorem add_mod_ne {h i j : ℕ} (hh : h < n) (hij : i < j) (hj : j < n) :
    (h + i) % n ≠ (h + j) % n := by
  rw [add_mod_eq_ite hh (by omega), add_mod_eq_ite hh (by omega)]
  split_ifs <;> omega

theorem holds_empty (hn : 0 < n) (x : α) : Holds n (empty x) [] where
  length_eq := rfl
  count_le := Nat.zero_le n
  head_lt := hn
  tail_eq := (Nat.zero_mod n).symm
  cells_eq i h := absurd h (Nat.not_lt_zero i)

theorem Holds.tail_lt (h : Holds n r queue) : r.tail < n := by
  rw [h.tail_eq]
  exact Nat.mod_lt _ (by have := h.head_lt; omega)

/-- A new entry never stops the program, and stands at the end of the queue. -/
theorem Holds.push (h : Holds n r queue) (x : α) :
    ∃ r', r.push n x = some r' ∧ Holds n r' (pushBounded n x queue) := by
  have hhead := h.head_lt
  have hcount := h.count_le
  have hlength := h.length_eq
  have htail (d : ℕ) : (r.tail + d) % n = (r.head + r.count + d) % n := by
    rw [h.tail_eq, Nat.mod_add_mod]
  refine ⟨_, if_pos h.tail_lt, ?_⟩
  by_cases hroom : r.count < n
  · rw [if_pos hroom, pushBounded, if_pos (by omega)]
    refine ⟨by simp [hlength], hroom, hhead, ?_, ?_⟩
    · exact htail 1
    · intro i hi
      rw [List.length_append, List.length_singleton, hlength] at hi
      dsimp only
      rw [h.tail_eq]
      by_cases hlast : i = r.count
      · subst hlast
        simp [← hlength]
      · rw [Function.update_of_ne (add_mod_ne hhead (by omega) hroom),
          List.getElem_append_left (by omega)]
        exact h.cells_eq i (by omega)
  · have hfull : r.count = n := by omega
    have hat : r.tail = r.head := by
      rw [h.tail_eq, hfull, Nat.add_mod_right, Nat.mod_eq_of_lt hhead]
    rw [if_neg hroom, pushBounded, if_neg (by omega)]
    refine ⟨?_, hcount, Nat.mod_lt _ (by omega), ?_, ?_⟩
    · simp only [List.length_append, List.length_drop, List.length_singleton]
      omega
    · dsimp only
      rw [hat, hfull, Nat.add_mod_right, Nat.mod_mod]
    · intro i hi
      simp only [List.length_append, List.length_drop, List.length_singleton] at hi
      dsimp only
      rw [Nat.mod_add_mod, Nat.add_assoc, hat]
      by_cases hlast : i + 1 = n
      · have hend : ¬ i < (queue.drop 1).length := by simp; omega
        rw [Nat.add_comm 1 i, hlast, Nat.add_mod_right, Nat.mod_eq_of_lt hhead,
          Function.update_self, List.getElem_append_right (by simpa using hend)]
        simp
      · have hne : (r.head + (1 + i)) % n ≠ r.head := by
          rw [add_mod_eq_ite hhead (by omega)]
          split_ifs <;> omega
        rw [Function.update_of_ne hne, List.getElem_append_left (by simp; omega),
          List.getElem_drop]
        exact h.cells_eq (1 + i) (by omega)

theorem Holds.pop {x : α} (h : Holds n r (x :: queue)) :
    ∃ r', r.pop n = some (x, r') ∧ Holds n r' queue := by
  have hhead := h.head_lt
  have hcount := h.count_le
  have hlength := h.length_eq
  rw [List.length_cons] at hlength
  have hfirst : r.cells r.head = x := by
    have hcell := h.cells_eq 0 (by simp)
    rwa [Nat.add_zero, Nat.mod_eq_of_lt hhead] at hcell
  refine ⟨{ r with head := (r.head + 1) % n, count := r.count - 1 }, ?_, ?_⟩
  · rw [RingBuffer.pop, if_pos hhead, hfirst]
  · refine ⟨?_, ?_, Nat.mod_lt _ (by omega), ?_, ?_⟩
    · change queue.length = r.count - 1
      omega
    · change r.count - 1 ≤ n
      omega
    · change r.tail = ((r.head + 1) % n + (r.count - 1)) % n
      have hround : r.head + 1 + (r.count - 1) = r.head + r.count := by omega
      rw [Nat.mod_add_mod, hround]
      exact h.tail_eq
    · intro i hi
      change r.cells (((r.head + 1) % n + i) % n) = queue[i]
      rw [Nat.mod_add_mod, Nat.add_assoc, Nat.add_comm 1 i]
      exact h.cells_eq (i + 1) (by simpa using hi)

theorem Holds.drain {k : ℕ} (h : Holds n r queue) (hk : k ≤ queue.length) :
    ∃ r', r.drain n k = some (queue.take k, r') ∧ Holds n r' (queue.drop k) := by
  induction k generalizing r queue with
  | zero => exact ⟨r, rfl, h⟩
  | succ k ih =>
    cases queue with
    | nil => exact absurd hk (Nat.not_succ_le_zero k)
    | cons x queue =>
      obtain ⟨r', hpop, hrest⟩ := h.pop
      obtain ⟨r'', hdrain, hend⟩ := ih hrest (Nat.le_of_succ_le_succ hk)
      refine ⟨r'', ?_, hend⟩
      rw [RingBuffer.drain, hpop, Option.bind_some, hdrain]
      rfl

end RingBuffer
end ProxyTun.Library
