import Mathlib.Data.List.Nodup

/-!
# Rows of a list

A list whose rows are named by their positions, and the sublist of the keys that its rows carry.
Changing, removing and inserting a row change the list of keys at one place.
-/
namespace ProxyTun.Library.Rows

variable {α κ : Type*}

theorem split_at {rows : List α} {i : ℕ} {row : α} (h : rows[i]? = some row) :
    rows = rows.take i ++ row :: rows.drop (i + 1) ∧ (rows.take i).length = i := by
  obtain ⟨hi, rfl⟩ := List.getElem?_eq_some_iff.mp h
  constructor
  · rw [← List.drop_eq_getElem_cons hi, List.take_append_drop]
  · rw [List.length_take]
    omega

theorem set_eq {rows : List α} {i : ℕ} {row : α} (h : rows[i]? = some row) (new : α) :
    rows.set i new = rows.take i ++ new :: rows.drop (i + 1) := by
  obtain ⟨hi, -⟩ := List.getElem?_eq_some_iff.mp h
  rw [List.set_eq_take_append_cons_drop, if_pos hi]

theorem insertIdx_eq {rows : List α} {i : ℕ} (hi : i ≤ rows.length) (new : α) :
    rows.insertIdx i new = rows.take i ++ new :: rows.drop i := by
  induction rows generalizing i with
  | nil =>
    obtain rfl : i = 0 := Nat.le_zero.mp hi
    rfl
  | cons row rows ih =>
    cases i with
    | zero => rfl
    | succ i =>
      have hrest := ih (Nat.le_of_succ_le_succ hi)
      simp [hrest]

theorem getElem?_moved {rows : List α} {i j : ℕ} {row : α} (h : rows[i]? = some row)
    (hj : j < rows.length) (k : ℕ) :
    ((rows.eraseIdx i).insertIdx j row)[k]? =
      if k = j then some row
      else if i ≤ k ∧ k < j then rows[k + 1]?
      else if j < k ∧ k ≤ i then rows[k - 1]?
      else rows[k]? := by
  obtain ⟨hi, -⟩ := List.getElem?_eq_some_iff.mp h
  have hlength := List.length_eraseIdx_of_lt hi
  rw [List.getElem?_insertIdx, List.getElem?_eraseIdx, List.getElem?_eraseIdx]
  split_ifs
  all_goals first
    | rfl
    | omega
    | (congr 1; omega)

/-- A move changes nothing if and only if all rows between the two places are alike. -/
theorem moved_eq_self_iff {rows : List α} {i j : ℕ} {row : α} (h : rows[i]? = some row)
    (hj : j < rows.length) :
    (rows.eraseIdx i).insertIdx j row = rows ↔
      ∀ k, min i j ≤ k → k ≤ max i j → rows[k]? = some row := by
  constructor
  · intro hsame
    have hmoved (k : ℕ) := (congrArg (fun moved => moved[k]?) hsame).symm.trans
      (getElem?_moved h hj k)
    rcases Nat.le_total i j with hij | hij
    · have hup (d : ℕ) : i + d ≤ j → rows[i + d]? = some row := by
        induction d with
        | zero => exact fun _ => h
        | succ d ih =>
          intro hd
          have hk := hmoved (i + d)
          rw [if_neg (by omega), if_pos (by omega)] at hk
          exact hk.symm.trans (ih (by omega))
      intro k hmin hmax
      obtain ⟨d, rfl⟩ := Nat.exists_eq_add_of_le (show i ≤ k by omega)
      exact hup d (by omega)
    · have hdown (d : ℕ) : j + d ≤ i → rows[i - d]? = some row := by
        induction d with
        | zero => exact fun _ => h
        | succ d ih =>
          intro hd
          have hk := hmoved (i - d)
          rw [if_neg (by omega), if_neg (by omega), if_pos (by omega)] at hk
          rw [show i - (d + 1) = i - d - 1 by omega]
          exact hk.symm.trans (ih (by omega))
      intro k hmin hmax
      rw [show k = i - (i - k) by omega]
      exact hdown (i - k) (by omega)
  · intro hall
    apply List.ext_getElem?
    intro k
    rw [getElem?_moved h hj]
    split_ifs with hk hup hdown
    · exact (hall k (by omega) (by omega)).symm
    · rw [hall (k + 1) (by omega) (by omega), hall k (by omega) (by omega)]
    · rw [hall (k - 1) (by omega) (by omega), hall k (by omega) (by omega)]
    · rfl

def keys (key : α → Option κ) (rows : List α) : List κ := rows.filterMap key

variable {key : α → Option κ}

@[simp] theorem keys_nil : keys key [] = [] := rfl

@[simp] theorem keys_append (rows rows' : List α) :
    keys key (rows ++ rows') = keys key rows ++ keys key rows' :=
  List.filterMap_append

theorem keys_cons (row : α) (rows : List α) :
    keys key (row :: rows) = (key row).toList ++ keys key rows := by
  cases h : key row <;> simp [keys, h]

theorem keys_set {rows : List α} {i : ℕ} {row new : α} (h : rows[i]? = some row)
    (hnew : key new = key row) : keys key (rows.set i new) = keys key rows := by
  rw [set_eq h]
  conv_rhs => rw [(split_at h).1]
  rw [keys_append, keys_append, keys_cons, keys_cons, hnew]

theorem mem_keys_set {rows : List α} {i : ℕ} {row : α} (h : rows[i]? = some row) (new : α)
    (k : κ) :
    k ∈ keys key (rows.set i new) ↔ key new = some k ∨ k ∈ keys key (rows.eraseIdx i) := by
  rw [set_eq h, List.eraseIdx_eq_take_drop_succ, keys_append, keys_append, keys_cons]
  simp only [List.mem_append, Option.mem_toList]
  exact or_left_comm

theorem mem_keys_of_getElem? {rows : List α} {i : ℕ} {row : α} (h : rows[i]? = some row)
    (k : κ) : k ∈ keys key rows ↔ key row = some k ∨ k ∈ keys key (rows.eraseIdx i) := by
  obtain ⟨hi, rfl⟩ := List.getElem?_eq_some_iff.mp h
  conv_lhs => rw [← List.set_getElem_self hi]
  exact mem_keys_set h _ k

theorem keys_eraseIdx [BEq κ] [LawfulBEq κ] {rows : List α} {i : ℕ} {row : α} {k : κ}
    (h : rows[i]? = some row) (hrow : key row = some k) (hnodup : (keys key rows).Nodup) :
    keys key (rows.eraseIdx i) = (keys key rows).erase k := by
  have hsplit : keys key rows = keys key (rows.take i) ++ k :: keys key (rows.drop (i + 1)) := by
    conv_lhs => rw [(split_at h).1]
    rw [keys_append, keys_cons, hrow]
    rfl
  have hnot : k ∉ keys key (rows.take i) := by
    rw [hsplit, List.nodup_append] at hnodup
    exact fun hk => hnodup.2.2 k hk k List.mem_cons_self rfl
  rw [List.eraseIdx_eq_take_drop_succ, keys_append, hsplit, List.erase_append_right _ hnot,
    List.erase_cons_head]

theorem keys_mapIdx {f : ℕ → α → α} (hf : ∀ i row, key (f i row) = key row) (rows : List α) :
    keys key (rows.mapIdx f) = keys key rows := by
  have hmap : (rows.mapIdx f).map key = rows.map key := by
    apply List.ext_getElem?
    intro i
    simp [hf, Function.comp_def]
  have hkeys (rows : List α) : keys key rows = (rows.map key).filterMap id := by
    rw [List.filterMap_map]
    rfl
  rw [hkeys, hmap, ← hkeys]

section Names

variable {f : α → κ}

theorem name_ne_of_mem_eraseIdx {rows : List α} {i : ℕ} {row other : α}
    (hnodup : (rows.map f).Nodup) (h : rows[i]? = some row) (hother : other ∈ rows.eraseIdx i) :
    f other ≠ f row := by
  rw [(split_at h).1, List.map_append, List.map_cons, List.nodup_middle, ← List.map_append,
    ← List.eraseIdx_eq_take_drop_succ] at hnodup
  exact fun hsame => (List.nodup_cons.mp hnodup).1 (List.mem_map.mpr ⟨other, hother, hsame⟩)

theorem map_of_name_not_mem [DecidableEq κ] {rows : List α} {name : κ} (h : name ∉ rows.map f)
    (g : α → α) : (rows.map fun row => if f row = name then g row else row) = rows := by
  have hsame : ∀ row ∈ rows, (if f row = name then g row else row) = id row := by
    intro row hrow
    apply if_neg
    rintro rfl
    exact h (List.mem_map_of_mem hrow)
  rw [List.map_congr_left hsame, List.map_id]

theorem filter_of_name_not_mem [DecidableEq κ] {rows : List α} {name : κ}
    (h : name ∉ rows.map f) : (rows.filter fun row => f row ≠ name) = rows := by
  apply List.filter_eq_self.mpr
  intro row hrow
  rw [decide_eq_true_eq]
  rintro rfl
  exact h (List.mem_map_of_mem hrow)

theorem set_eq_map [DecidableEq κ] {rows : List α} {i : ℕ} {row : α}
    (hnodup : (rows.map f).Nodup) (h : rows[i]? = some row) (g : α → α) :
    rows.set i (g row) = rows.map fun other => if f other = f row then g other else other := by
  have hothers : ∀ other ∈ rows.eraseIdx i,
      (if f other = f row then g other else other) = other :=
    fun other hother => if_neg (name_ne_of_mem_eraseIdx hnodup h hother)
  rw [List.eraseIdx_eq_take_drop_succ] at hothers
  conv_rhs => rw [(split_at h).1]
  rw [set_eq h, List.map_append, List.map_cons, if_pos rfl,
    List.map_congr_left fun other hmem => hothers other (List.mem_append_left _ hmem),
    List.map_congr_left fun other hmem => hothers other (List.mem_append_right _ hmem)]
  simp

theorem eraseIdx_eq_filter [DecidableEq κ] {rows : List α} {i : ℕ} {row : α}
    (hnodup : (rows.map f).Nodup) (h : rows[i]? = some row) :
    rows.eraseIdx i = rows.filter fun other => f other ≠ f row := by
  have hothers : ∀ other ∈ rows.eraseIdx i, f other ≠ f row :=
    fun other hother => name_ne_of_mem_eraseIdx hnodup h hother
  have hkept : (rows.eraseIdx i).filter (fun other => f other ≠ f row) = rows.eraseIdx i :=
    List.filter_eq_self.mpr fun other hother => by simpa using hothers other hother
  conv_rhs => rw [(split_at h).1]
  rw [← hkept, List.eraseIdx_eq_take_drop_succ, List.filter_append, List.filter_append,
    List.filter_cons_of_neg (by simp)]

end Names

theorem map_set {β : Type*} {g : α → β} {rows : List α} {i : ℕ} {row new : α}
    (h : rows[i]? = some row) (hnew : g new = g row) : (rows.set i new).map g = rows.map g := by
  conv_rhs => rw [(split_at h).1]
  rw [set_eq h, List.map_append, List.map_append, List.map_cons, List.map_cons, hnew]

theorem modify_eq {rows : List α} {i : ℕ} {row : α} (h : rows[i]? = some row) (f : α → α) :
    rows.modify i f = rows.take i ++ f row :: rows.drop (i + 1) := by
  obtain ⟨hi, rfl⟩ := List.getElem?_eq_some_iff.mp h
  exact List.modify_eq_take_cons_drop hi

theorem map_modify_of {β : Type*} {f : α → α} {g : α → β} {rows : List α} {i : ℕ} {row : α}
    (h : rows[i]? = some row) (hf : g (f row) = g row) :
    (rows.modify i f).map g = rows.map g := by
  conv_rhs => rw [(split_at h).1]
  rw [modify_eq h, List.map_append, List.map_append, List.map_cons, List.map_cons, hf]

/-- Counting rows and counting keys come to the same place when all rows in front of it have a
key, or none behind it. -/
theorem keys_take_iff {rows : List α} {i : ℕ} (hi : i ≤ rows.length) :
    keys key (rows.take i) = (keys key rows).take i ↔
      (∀ row ∈ rows.take i, (key row).isSome = true) ∨ ∀ row ∈ rows.drop i, key row = none := by
  have hsplit : keys key rows = keys key (rows.take i) ++ keys key (rows.drop i) := by
    rw [← keys_append, List.take_append_drop]
  have hlength : (rows.take i).length = i := by
    rw [List.length_take]
    omega
  have hle : (keys key (rows.take i)).length ≤ i :=
    le_of_le_of_eq (List.length_filterMap_le key (rows.take i)) hlength
  have hsome : (keys key (rows.take i)).length = i ↔
      ∀ row ∈ rows.take i, (key row).isSome = true := by
    rw [← List.filterMap_length_eq_length, hlength, keys]
  have hnone : keys key (rows.drop i) = [] ↔ ∀ row ∈ rows.drop i, key row = none :=
    List.filterMap_eq_nil_iff
  have hcounted : i - (keys key (rows.take i)).length = 0 ↔
      (keys key (rows.take i)).length = i := by
    omega
  rw [← hsome, ← hnone, hsplit, List.take_append, List.take_of_length_le hle,
    List.self_eq_append_right, List.take_eq_nil_iff, hcounted]

/-- A list with a new element at its end is the list with it at its head only if all elements
are equal to it. -/
theorem append_singleton_eq_cons_iff {l : List κ} {k : κ} :
    l ++ [k] = k :: l ↔ ∀ x ∈ l, x = k := by
  induction l with
  | nil => simp
  | cons x l ih =>
    simp only [List.cons_append, List.cons.injEq, List.forall_mem_cons]
    constructor
    · rintro ⟨rfl, h⟩
      exact ⟨rfl, ih.mp h⟩
    · rintro ⟨rfl, h⟩
      exact ⟨rfl, ih.mpr h⟩

/-- A new element inserted at two places gives the same list only if the places have the same
elements before them. -/
theorem insert_eq_iff {a b c d : List κ} {k : κ} (hl : a ++ b = c ++ d) (hk : k ∉ a ++ b) :
    a ++ k :: b = c ++ k :: d ↔ a = c := by
  constructor
  · intro h
    rcases List.append_eq_append_iff.mp h with ⟨x, hc, hx⟩ | ⟨x, ha, hx⟩
    · cases x with
      | nil => rw [hc, List.append_nil]
      | cons y x =>
        obtain ⟨rfl, -⟩ := List.cons.inj hx
        exact absurd (hl ▸ (by simp [hc])) hk
    · cases x with
      | nil => rw [ha, List.append_nil]
      | cons y x =>
        obtain ⟨rfl, -⟩ := List.cons.inj hx
        exact absurd (by simp [ha]) hk
  · rintro rfl
    rw [List.append_cancel_left hl]

end ProxyTun.Library.Rows
