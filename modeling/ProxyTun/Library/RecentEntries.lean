import Mathlib.Data.List.Basic
import Mathlib.Data.List.Induction

/-!
# A linked list of recent entries

New entries go to the front of the list. To keep it short, a pointer walks over some nodes, and what
is behind its node is cut off. What is kept after any history are the newest entries.
-/
namespace ProxyTun.Library.RecentEntries

variable {α : Type*}

/-- A pointer into a list, with the nodes before it. At the end of the list it is null. -/
structure Cursor (α : Type*) where
  passed : List α
  rest : List α

namespace Cursor

def start (list : List α) : Cursor α := ⟨[], list⟩

def isNull (c : Cursor α) : Bool := c.rest.isEmpty

/-- The node behind the pointer's is null. -/
def atLast (c : Cursor α) : Bool := c.rest.tail.isEmpty

/-- The pointer goes on to the next node. -/
def advance (c : Cursor α) : Cursor α := ⟨c.passed ++ c.rest.take 1, c.rest.tail⟩

/-- The pointer goes on some nodes, or to the end. -/
def walk : ℕ → Cursor α → Cursor α
  | 0, c => c
  | n + 1, c => if c.isNull then c else walk n c.advance

/-- The list when the pointer's node is made the last one. -/
def cut (c : Cursor α) : List α := c.passed ++ c.rest.take 1

theorem walk_eq (n : ℕ) (c : Cursor α) :
    c.walk n = ⟨c.passed ++ c.rest.take n, c.rest.drop n⟩ := by
  induction n generalizing c with
  | zero => simp [walk]
  | succ n ih =>
    obtain ⟨passed, rest⟩ := c
    cases rest with
    | nil => simp [walk, isNull]
    | cons a rest =>
      rw [walk, if_neg (by simp [isNull]), ih]
      simp [advance]

theorem cut_walk (n : ℕ) (list : List α) : (walk n (start list)).cut = list.take (n + 1) := by
  rw [walk_eq, cut, start, List.nil_append]
  exact List.take_add.symm

theorem isNull_walk (n : ℕ) (list : List α) :
    (walk n (start list)).isNull = decide (list.length ≤ n) := by
  rw [walk_eq, isNull, start, Bool.eq_iff_iff]
  simp

theorem atLast_walk (n : ℕ) (list : List α) :
    (walk n (start list)).atLast = decide (list.length ≤ n + 1) := by
  rw [walk_eq, atLast, start, Bool.eq_iff_iff]
  simp

end Cursor

/-- The nodes of a list, one by one. -/
def count : List α → ℕ
  | [] => 0
  | _ :: list => count list + 1

def countTo : ℕ → List α → ℕ
  | 0, _ => 0
  | _ + 1, [] => 0
  | limit + 1, _ :: list => countTo limit list + 1

theorem count_eq (list : List α) : count list = list.length := by
  induction list with
  | nil => rfl
  | cons a list ih => rw [count, ih, List.length_cons]

theorem countTo_eq (limit : ℕ) (list : List α) : countTo limit list = min limit list.length := by
  induction limit generalizing list with
  | zero => rw [countTo, Nat.zero_min]
  | succ limit ih =>
    cases list with
    | nil => rfl
    | cons a list => rw [countTo, ih, List.length_cons, Nat.succ_min_succ]

/-- What is done to the list. -/
inductive Event (α : Type*) where
  | add (entry : α)
  | trim
  | clear

/-- The entries since the list was cleared, of which none is forgotten. -/
def record (entries : List α) : Event α → List α
  | .add entry => entry :: entries
  | .trim => entries
  | .clear => []

/-- The entries that were added since the list was cleared, the newest first. -/
def added (events : List (Event α)) : List α := events.foldl record []

/-- The list keeps as many entries as there is room for. -/
structure Keeps (bound : ℕ) (step : List α → Event α → List α) : Prop where
  add : ∀ list entry, step list (.add entry) = (entry :: list).take bound
  trim : ∀ list, step list .trim = list.take bound
  clear : ∀ list, step list .clear = []

theorem Keeps.step_take {bound : ℕ} {step : List α → Event α → List α} (h : Keeps bound step)
    (entries : List α) (event : Event α) :
    step (entries.take bound) event = (record entries event).take bound := by
  cases event with
  | add entry =>
    rw [h.add]
    cases bound with
    | zero => rfl
    | succ bound =>
      rw [record, List.take_succ_cons, List.take_succ_cons, List.take_take,
        Nat.min_eq_left (Nat.le_succ bound)]
  | trim => rw [h.trim, record, List.take_take, Nat.min_self]
  | clear => rw [h.clear, record, List.take_nil]

theorem Keeps.foldl_eq {bound : ℕ} {step : List α → Event α → List α} (h : Keeps bound step)
    (events : List (Event α)) : events.foldl step [] = (added events).take bound := by
  induction events using List.reverseRecOn with
  | nil => simp [added]
  | append_singleton events event ih =>
    rw [List.foldl_append, List.foldl_cons, List.foldl_nil, ih, h.step_take, added, added,
      List.foldl_append, List.foldl_cons, List.foldl_nil]

end ProxyTun.Library.RecentEntries
