import Mathlib.Data.List.Basic

/-!
# Buffers of a fixed size

A buffer is a list that keeps its length. What reads or writes outside of it fails.
-/
namespace ProxyTun.Library.Buffer

/-- A buffer of a size, with whatever is in it. -/
abbrev Sized (α : Type*) (size : ℕ) := { buffer : List α // buffer.length = size }

variable {α : Type*}

def load (buffer : List α) (i : ℕ) : Option α := buffer[i]?

def store (buffer : List α) (i : ℕ) (a : α) : Option (List α) :=
  if i < buffer.length then some (buffer.set i a) else none

/-- One write after the other, at indices that go up by one. -/
def storeAll (buffer : List α) (start : ℕ) : List α → Option (List α)
  | [] => some buffer
  | a :: values => do
    let written ← store buffer start a
    storeAll written (start + 1) values

def loadFront (buffer : List α) (count : ℕ) : Option (List α) :=
  if count ≤ buffer.length then some (buffer.take count) else none

def overwrite (buffer : List α) (start : ℕ) (values : List α) : List α :=
  buffer.take start ++ values ++ buffer.drop (start + values.length)

variable {buffer values : List α} {start : ℕ}

@[simp] theorem overwrite_nil (buffer : List α) (start : ℕ) :
    overwrite buffer start [] = buffer := by
  simp [overwrite]

theorem length_overwrite (h : start + values.length ≤ buffer.length) :
    (overwrite buffer start values).length = buffer.length := by
  simp only [overwrite, List.length_append, List.length_take, List.length_drop]
  omega

theorem overwrite_overwrite {more : List α}
    (h : start + values.length ≤ buffer.length) :
    overwrite (overwrite buffer start values) (start + values.length) more =
      overwrite buffer start (values ++ more) := by
  have htake : (buffer.take start ++ values).length = start + values.length := by
    rw [List.length_append, List.length_take]
    omega
  have hdrop : start + (values ++ more).length = start + values.length + more.length := by
    rw [List.length_append]
    omega
  unfold overwrite
  rw [hdrop, ← htake, List.take_left, List.drop_append, List.drop_drop]
  simp only [Nat.add_sub_cancel_left]
  rw [List.drop_eq_nil_of_le (by omega), List.nil_append, List.append_assoc (buffer.take start),
    htake]

theorem overwrite_same {more : List α} (hmore : values.length ≤ more.length)
    (h : start + values.length ≤ buffer.length) :
    overwrite (overwrite buffer start values) start more = overwrite buffer start more := by
  have hfront : (buffer.take start).length = start := by
    rw [List.length_take]
    omega
  have hboth : (buffer.take start ++ values).length = start + values.length := by
    rw [List.length_append, hfront]
  have htake : (buffer.take start ++ values ++ buffer.drop (start + values.length)).take start =
      buffer.take start := by
    rw [List.append_assoc]
    exact List.take_left' hfront
  have hdrop : (buffer.take start ++ values ++ buffer.drop (start + values.length)).drop
      (start + more.length) = buffer.drop (start + more.length) := by
    rw [List.drop_append, List.drop_eq_nil_of_le (by omega), hboth, List.drop_drop,
      List.nil_append]
    congr 1
    omega
  rw [overwrite, overwrite, overwrite, htake, hdrop]

theorem overwrite_end {last more : List α} (hmore : last.length ≤ more.length)
    (h : start + (values ++ last).length ≤ buffer.length) :
    overwrite (overwrite buffer start (values ++ last)) (start + values.length) more =
      overwrite buffer start (values ++ more) := by
  rw [List.length_append] at h
  have hvalues : start + values.length ≤ buffer.length := by omega
  rw [← overwrite_overwrite hvalues, overwrite_same hmore, overwrite_overwrite hvalues]
  rw [length_overwrite hvalues]
  omega

theorem store_eq (h : start < buffer.length) (a : α) :
    store buffer start a = some (overwrite buffer start [a]) := by
  rw [store, if_pos h, List.set_eq_take_append_cons_drop, if_pos h, overwrite]
  simp

theorem storeAll_eq (h : start + values.length ≤ buffer.length) :
    storeAll buffer start values = some (overwrite buffer start values) := by
  induction values generalizing buffer start with
  | nil => rw [overwrite_nil]; rfl
  | cons a values ih =>
    rw [List.length_cons] at h
    have hone : start + [a].length ≤ buffer.length := by
      rw [List.length_singleton]
      omega
    have hrest : start + 1 + values.length ≤ (overwrite buffer start [a]).length := by
      rw [length_overwrite hone]
      omega
    have htwo : overwrite (overwrite buffer start [a]) (start + 1) values =
        overwrite buffer start ([a] ++ values) := overwrite_overwrite hone
    rw [storeAll, store_eq (by omega), Option.bind_eq_bind, Option.bind_some, ih hrest, htwo]
    rfl

theorem load_of_front {front : List α} (h : front <+: buffer) {i : ℕ} (hi : i < front.length) :
    load buffer i = front[i]? := by
  obtain ⟨rest, rfl⟩ := h
  rw [load, List.getElem?_append_left hi]

theorem loadFront_overwrite_zero (h : values.length ≤ buffer.length) {count : ℕ}
    (hcount : count ≤ values.length) :
    loadFront (overwrite buffer 0 values) count = some (values.take count) := by
  have hlength : (overwrite buffer 0 values).length = buffer.length :=
    length_overwrite (by omega)
  rw [loadFront, if_pos (by omega), overwrite, List.take_zero, List.nil_append,
    List.take_append_of_le_length hcount]

end ProxyTun.Library.Buffer
