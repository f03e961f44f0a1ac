import Mathlib.Data.List.Nodup
import Mathlib.Data.List.Perm.Basic

/-!
# Views of a table

A table gives a value to each of its keys, and a view shows some of its entries. The view stays
right when both are changed at the same key.
-/
namespace ProxyTun.Library

variable {κ ν : Type*}

/-- No key of the table has two entries, and every entry that is shown is in the table. -/
structure Mirrors (table view : List (κ × ν)) : Prop where
  distinct : (table.map Prod.fst).Nodup
  once : (view.map Prod.fst).Nodup
  shown : ∀ e ∈ view, e ∈ table

namespace Mirrors

variable {table table' view view' : List (κ × ν)} {k : κ} {v v' : ν}

theorem value_eq (h : (table.map Prod.fst).Nodup) (hv : (k, v) ∈ table) (hv' : (k, v') ∈ table) :
    v = v' :=
  (Prod.mk.inj (List.inj_on_of_nodup_map h hv hv' rfl)).2

theorem perm (h : Mirrors table view) (htable : table'.Perm table) (hview : view'.Perm view) :
    Mirrors table' view' := by
  refine ⟨?_, ?_, fun e he => ?_⟩
  · exact (htable.map Prod.fst).nodup_iff.mpr h.distinct
  · exact (hview.map Prod.fst).nodup_iff.mpr h.once
  · exact htable.mem_iff.mpr (h.shown e (hview.mem_iff.mp he))

theorem shown_insert_iff (hview : k ∉ view.map Prod.fst) (htable : k ∉ table.map Prod.fst) :
    (∀ e ∈ view ++ [(k, v)], e ∈ (k, v') :: table) ↔ (∀ e ∈ view, e ∈ table) ∧ v = v' := by
  have hnew : (k, v) ∈ (k, v') :: table ↔ v = v' := by
    have hnot : (k, v) ∉ table := fun hmem => htable (List.mem_map_of_mem hmem)
    simp [hnot]
  have hold : ∀ e ∈ view, (e ∈ (k, v') :: table ↔ e ∈ table) := by
    intro e he
    have hne : e ≠ (k, v') := fun heq => hview (List.mem_map.mpr ⟨e, he, by rw [heq]⟩)
    simp [hne]
  rw [List.forall_mem_append, List.forall_mem_singleton, hnew]
  exact and_congr_left fun _ => forall₂_congr hold

theorem erase [DecidableEq κ] [BEq (κ × ν)] [LawfulBEq (κ × ν)] (h : Mirrors table view)
    (he : (k, v) ∈ view) :
    Mirrors (table.eraseP fun e => e.1 = k) (view.erase (k, v)) := by
  refine ⟨?_, ?_, fun e hmem => ?_⟩
  · exact h.distinct.sublist (List.eraseP_sublist.map Prod.fst)
  · exact h.once.sublist (List.erase_sublist.map Prod.fst)
  · obtain ⟨hne, hview⟩ := (List.Nodup.mem_erase_iff h.once.of_map).mp hmem
    have hkey : e.1 ≠ k := fun hk => hne (List.inj_on_of_nodup_map h.once hview he hk)
    rw [List.mem_eraseP_of_neg (by simpa using hkey)]
    exact h.shown e hview

theorem replace {before behind : List (κ × ν)} (h : Mirrors table (before ++ (k, v) :: behind))
    (hkeys : table'.map Prod.fst = table.map Prod.fst) (hnew : (k, v') ∈ table')
    (hrest : ∀ e ∈ table, e.1 ≠ k → e ∈ table') :
    Mirrors table' (before ++ (k, v') :: behind) := by
  have honce : ((before ++ (k, v') :: behind).map Prod.fst).Nodup := by
    simpa using h.once
  refine ⟨hkeys ▸ h.distinct, honce, fun e he => ?_⟩
  by_cases hk : e.1 = k
  · have hmem : (k, v') ∈ before ++ (k, v') :: behind := by simp
    obtain rfl := List.inj_on_of_nodup_map honce he hmem hk
    exact hnew
  · refine hrest e (h.shown e ?_) hk
    simp only [List.mem_append, List.mem_cons] at he ⊢
    rcases he with he | rfl | he
    · exact .inl he
    · exact absurd rfl hk
    · exact .inr (.inr he)

end Mirrors
end ProxyTun.Library
