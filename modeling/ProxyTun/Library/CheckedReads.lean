import Mathlib.Data.List.Basic
import Mathlib.Data.List.GetD

/-!
# Checked reads

Code that reads an array and is stopped by the first access outside of it.
-/
namespace ProxyTun.Library.CheckedReads

/-- An access of an array. -/
inductive Access where
  | index (i : ℕ)
  | slice (start stop : ℕ)
  deriving DecidableEq, Repr

abbrev Reads (α : Type) := Except Access α

variable {α β ι : Type}

def index [Inhabited α] (data : List α) (i : ℕ) : Reads α :=
  if i < data.length then .ok (data.getD i default) else .error (.index i)

/-- The elements from `start` up to `stop`, which is not among them. -/
def slice (data : List α) (start stop : ℕ) : Reads (List α) :=
  if start ≤ stop ∧ stop ≤ data.length then .ok ((data.take stop).drop start)
  else .error (.slice start stop)

/-- No access stops the code. -/
def InRange (c : Reads β) : Prop := ∃ b, c = .ok b

variable {data : List α} {i : ℕ}

theorem index_of_lt [Inhabited α] (h : i < data.length) :
    index data i = .ok (data.getD i default) := if_pos h

theorem slice_of_le {start stop : ℕ} (h : start ≤ stop) (hstop : stop ≤ data.length) :
    slice data start stop = .ok ((data.take stop).drop start) := if_pos ⟨h, hstop⟩

theorem getD_append_add (front rest : List α) (k : ℕ) (d : α) :
    (front ++ rest).getD (front.length + k) d = rest.getD k d := by
  rw [List.getD_append_right _ _ _ _ (by omega), Nat.add_sub_cancel_left]

@[simp] theorem inRange_pure (b : β) : InRange (pure b) := ⟨b, rfl⟩

@[simp] theorem inRange_index [Inhabited α] : InRange (index data i) ↔ i < data.length := by
  unfold index
  split_ifs with h
  · exact iff_of_true ⟨_, rfl⟩ h
  · exact iff_of_false (by simp [InRange]) h

@[simp] theorem inRange_index_bind [Inhabited α] (f : α → Reads β) :
    InRange (index data i >>= f) ↔ i < data.length ∧ InRange (f (data.getD i default)) := by
  unfold index
  split_ifs with h
  · exact (and_iff_right h).symm
  · refine iff_of_false ?_ fun hlt => h hlt.1
    rintro ⟨b, hb⟩
    cases hb

@[simp] theorem inRange_slice_bind (start stop : ℕ) (f : List α → Reads β) :
    InRange (slice data start stop >>= f) ↔
      (start ≤ stop ∧ stop ≤ data.length) ∧ InRange (f ((data.take stop).drop start)) := by
  unfold slice
  split_ifs with h
  · exact (and_iff_right h).symm
  · refine iff_of_false ?_ fun hin => h hin.1
    rintro ⟨b, hb⟩
    cases hb

/-- Code whose accesses do not depend on what the code before it returns. -/
theorem inRange_bind_iff {c : Reads ι} {f : ι → Reads β} {p : Prop}
    (h : ∀ a, InRange (f a) ↔ p) : InRange (c >>= f) ↔ InRange c ∧ p := by
  constructor
  · rintro ⟨b, hb⟩
    cases c with
    | ok a => exact ⟨⟨a, rfl⟩, (h a).mp ⟨b, hb⟩⟩
    | error e => cases hb
  · rintro ⟨⟨a, rfl⟩, hp⟩
    exact (h a).mpr hp

@[simp] theorem inRange_map (g : ι → β) (c : Reads ι) : InRange (g <$> c) ↔ InRange c := by
  rw [map_eq_pure_bind, inRange_bind_iff fun a => iff_true_intro (inRange_pure (g a)), and_true]

theorem inRange_mapM (f : ι → Reads β) (steps : List ι) :
    InRange (steps.mapM f) ↔ ∀ step ∈ steps, InRange (f step) := by
  induction steps with
  | nil => simp
  | cons step steps ih =>
    rw [List.mapM_cons, List.forall_mem_cons, ← ih]
    constructor
    · rintro ⟨bs, hbs⟩
      cases hstep : f step with
      | error e =>
        rw [hstep] at hbs
        cases hbs
      | ok b =>
        rw [hstep] at hbs
        have hrest : InRange ((fun rest => b :: rest) <$> steps.mapM f) := ⟨bs, hbs⟩
        exact ⟨⟨b, rfl⟩, (inRange_map _ _).mp hrest⟩
    · rintro ⟨⟨b, hb⟩, rest, hrest⟩
      exact ⟨b :: rest, by rw [hb, hrest]; rfl⟩

theorem mapM_eq_ok {f : ι → Reads β} {g : ι → β} {steps : List ι}
    (h : ∀ step ∈ steps, f step = .ok (g step)) : steps.mapM f = .ok (steps.map g) := by
  induction steps with
  | nil => rfl
  | cons step steps ih =>
    obtain ⟨hstep, hsteps⟩ := List.forall_mem_cons.mp h
    rw [List.mapM_cons, hstep, ih hsteps]
    rfl

end ProxyTun.Library.CheckedReads
