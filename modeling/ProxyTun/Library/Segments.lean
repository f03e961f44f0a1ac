import Mathlib.Data.List.Basic

/-!
# Streams in segments

A stream reaches its reader in pieces. A read returns the first piece, or as much of it as
the reader asks for, and leaves the rest for the next read. Once all pieces are read a read
returns nothing. What a program reads may depend on the pieces, while its specification
usually names the contents alone.
-/
namespace ProxyTun.Library

/-- A finite stream together with the way it is cut. -/
@[ext] structure Segmented (α : Type*) where
  parts : List (List α)
  nonempty : ∀ p ∈ parts, p ≠ []

namespace Segmented

variable {α : Type*}

/-- The stream cut at the given places, where an empty piece makes no difference. -/
def ofParts (ps : List (List α)) : Segmented α :=
  ⟨ps.filter fun p => !p.isEmpty, fun p hp => by simpa using (List.mem_filter.mp hp).2⟩

def contents (s : Segmented α) : List α := s.parts.flatten

/-- The piece that is read next. -/
def first (s : Segmented α) : List α := s.parts.headD []

/-- A read of at most `n` elements, and the stream after it. -/
def recv (n : ℕ) (s : Segmented α) : List α × Segmented α :=
  (s.first.take n, ofParts (s.first.drop n :: s.parts.tail))

/-- The pieces that hold at least `min` elements together, as far as there are, and the rest. -/
def gather (min : ℕ) : List (List α) → List α × List (List α)
  | [] => ([], [])
  | p :: ps =>
    if min ≤ p.length then (p, ps)
    else (p ++ (gather (min - p.length) ps).1, (gather (min - p.length) ps).2)

/-- A read that waits for at least `min` elements and returns at most `max`. -/
def recvAtLeast (min max : ℕ) (s : Segmented α) : List α × Segmented α :=
  ((gather min s.parts).1.take max,
    ofParts ((gather min s.parts).1.drop max :: (gather min s.parts).2))

@[simp] theorem contents_ofParts (ps : List (List α)) : (ofParts ps).contents = ps.flatten :=
  List.flatten_filter_not_isEmpty

theorem first_append (s : Segmented α) : s.first ++ s.parts.tail.flatten = s.contents := by
  rcases s with ⟨_ | ⟨p, ps⟩, h⟩ <;> rfl

theorem recv_append (n : ℕ) (s : Segmented α) :
    (s.recv n).1 ++ (s.recv n).2.contents = s.contents := by
  calc
    (s.recv n).1 ++ (s.recv n).2.contents
        = s.first.take n ++ (s.first.drop n ++ s.parts.tail.flatten) := by
          rw [recv, contents_ofParts, List.flatten_cons]
    _ = s.contents := by rw [← List.append_assoc, List.take_append_drop, first_append]

theorem length_recv_le (n : ℕ) (s : Segmented α) : (s.recv n).1.length ≤ n :=
  List.length_take_le n s.first

theorem first_eq_nil_iff (s : Segmented α) : s.first = [] ↔ s.contents = [] := by
  constructor
  · intro h
    rcases s with ⟨_ | ⟨p, ps⟩, hne⟩
    · rfl
    · exact absurd h (hne p List.mem_cons_self)
  · intro h
    rw [← first_append] at h
    exact (List.append_eq_nil_iff.mp h).1

/-- Only the end of the stream makes a read return nothing. -/
theorem recv_eq_nil_iff {n : ℕ} (hn : 0 < n) (s : Segmented α) :
    (s.recv n).1 = [] ↔ s.contents = [] := by
  rw [← first_eq_nil_iff, recv, List.take_eq_nil_iff]
  simp [Nat.ne_of_gt hn]

theorem readInduction {n : ℕ} (hn : 0 < n) {P : Segmented α → Prop}
    (ended : ∀ s, s.contents = [] → P s)
    (read : ∀ s, (s.recv n).1 ≠ [] → P (s.recv n).2 → P s) (s : Segmented α) : P s := by
  induction hlength : s.contents.length using Nat.strongRecOn generalizing s with
  | ind length ih =>
    by_cases hs : s.contents = []
    · exact ended s hs
    · have hread : (s.recv n).1 ≠ [] := fun h => hs ((recv_eq_nil_iff hn s).mp h)
      apply read s hread
      apply ih _ _ _ rfl
      have hpos : 0 < (s.recv n).1.length := List.length_pos_of_ne_nil hread
      have happend := congrArg List.length (recv_append n s)
      rw [List.length_append] at happend
      omega

theorem eq_iff_of_append {chunk rest a b : List α} (h : chunk ++ rest = a ++ b) :
    chunk = a ↔ rest = b := by
  constructor
  · intro ha
    rw [ha] at h
    exact List.append_cancel_left h
  · intro hb
    rw [hb] at h
    exact List.append_cancel_right h

/-- A read that returns exactly the front `a` of a stream leaves exactly the rest. -/
theorem recv_eq_iff {n : ℕ} {s : Segmented α} {a b : List α} (h : s.contents = a ++ b) :
    (s.recv n).1 = a ↔ (s.recv n).2.contents = b :=
  eq_iff_of_append ((recv_append n s).trans h)

theorem gather_append (min : ℕ) (ps : List (List α)) :
    (gather min ps).1 ++ (gather min ps).2.flatten = ps.flatten := by
  induction ps generalizing min with
  | nil => rfl
  | cons p ps ih =>
    unfold gather
    split
    · rfl
    · rw [List.append_assoc, ih, List.flatten_cons]

theorem le_length_gather {min : ℕ} {ps : List (List α)} (h : min ≤ ps.flatten.length) :
    min ≤ (gather min ps).1.length := by
  induction ps generalizing min with
  | nil => exact h
  | cons p ps ih =>
    unfold gather
    split
    · assumption
    · rw [List.flatten_cons, List.length_append] at h
      have hrest : min - p.length ≤ (gather (min - p.length) ps).1.length := ih (by omega)
      rw [List.length_append]
      omega

theorem recvAtLeast_append (min max : ℕ) (s : Segmented α) :
    (s.recvAtLeast min max).1 ++ (s.recvAtLeast min max).2.contents = s.contents := by
  rw [recvAtLeast, contents_ofParts, List.flatten_cons, ← List.append_assoc,
    List.take_append_drop]
  exact gather_append min s.parts

theorem recvAtLeast_eq_iff {min max : ℕ} {s : Segmented α} {a b : List α}
    (h : s.contents = a ++ b) :
    (s.recvAtLeast min max).1 = a ↔ (s.recvAtLeast min max).2.contents = b :=
  eq_iff_of_append ((recvAtLeast_append min max s).trans h)

/-- A read of at least one element returns the next piece. -/
theorem recvAtLeast_one (max : ℕ) (s : Segmented α) : s.recvAtLeast 1 max = s.recv max := by
  rcases s with ⟨_ | ⟨p, ps⟩, h⟩
  · rfl
  · have hpos : 1 ≤ p.length := List.length_pos_of_ne_nil (h p List.mem_cons_self)
    simp only [recvAtLeast, gather, if_pos hpos]
    rfl

/-- A read of a fixed number of elements returns the front of the stream, however it is cut. -/
theorem recvAtLeast_exact {s : Segmented α} {a b : List α} (h : s.contents = a ++ b) :
    (s.recvAtLeast a.length a.length).1 = a := by
  have hlength : a.length ≤ (gather a.length s.parts).1.length := by
    apply le_length_gather
    change a.length ≤ s.contents.length
    rw [h, List.length_append]
    omega
  apply List.append_inj_left ((recvAtLeast_append _ _ s).trans h)
  rw [recvAtLeast, List.length_take]
  omega

/-- A read that returns as many elements as the front `a` of a stream has returns it. -/
theorem recv_eq_of_length {n : ℕ} {s : Segmented α} {a b : List α} (h : s.contents = a ++ b)
    (hlength : (s.recv n).1.length = a.length) : (s.recv n).1 = a :=
  List.append_inj_left ((recv_append n s).trans h) hlength

/-- Reads of the given sizes return the given replies, one each. -/
def Returns : List (ℕ × List α) → Segmented α → Prop
  | [], _ => True
  | (n, reply) :: rest, s => (s.recv n).1 = reply ∧ Returns rest (s.recv n).2

instance decidableReturns [DecidableEq α] :
    ∀ (reads : List (ℕ × List α)) (s : Segmented α), Decidable (Returns reads s)
  | [], _ => .isTrue trivial
  | (n, _) :: rest, s =>
    have := decidableReturns rest (s.recv n).2
    inferInstanceAs (Decidable (_ ∧ _))

/-- Reads of the given sizes return the given replies, and leave a stream. -/
def Leaves : List (ℕ × List α) → Segmented α → Segmented α → Prop
  | [], s, t => s = t
  | (n, reply) :: rest, s, t => (s.recv n).1 = reply ∧ Leaves rest (s.recv n).2 t

section Leaves

variable {reads reads' : List (ℕ × List α)} {s t u : Segmented α}

theorem Leaves.recv (h : Leaves reads s t) (n : ℕ) :
    Leaves (reads ++ [(n, (t.recv n).1)]) s (t.recv n).2 := by
  induction reads generalizing s with
  | nil =>
    obtain rfl : s = t := h
    exact ⟨rfl, rfl⟩
  | cons read reads ih => exact ⟨h.1, ih h.2⟩

theorem Leaves.contents_eq (h : Leaves reads s t) :
    reads.flatMap Prod.snd ++ t.contents = s.contents := by
  induction reads generalizing s with
  | nil =>
    obtain rfl : s = t := h
    rfl
  | cons read reads ih =>
    rw [List.flatMap_cons, List.append_assoc, ih h.2, ← h.1, recv_append]

theorem Leaves.eq_of_returns (h : Leaves reads s t) (h' : Returns reads' s)
    (hsizes : reads.map Prod.fst = reads'.map Prod.fst) : reads = reads' := by
  induction reads generalizing s reads' with
  | nil => exact (List.map_eq_nil_iff.mp hsizes.symm).symm
  | cons read reads ih =>
    cases reads' with
    | nil => cases hsizes
    | cons read' reads' =>
      obtain ⟨n, reply⟩ := read
      obtain ⟨n', reply'⟩ := read'
      obtain ⟨rfl, hrest⟩ := List.cons.inj hsizes
      rw [ih h.2 h'.2 hrest, ← h.1, ← h'.1]

end Leaves

end Segmented
end ProxyTun.Library
