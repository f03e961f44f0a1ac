import ProxyTun.Library.ChainedTable
import ProxyTun.Library.NodeHeap

/-!
# A chained table in a heap

The chains of a hash table are linked lists of nodes. What is done to the nodes is what the table
does to its chains.
-/
namespace ProxyTun.Library.LinkedTable
open NodeHeap

variable {ι α β κ : Type*} {key : β → κ} {hash : κ → ι}

/-- The lists that start at the head slots hold the chains of a table. -/
structure Stores (m : Memory ι α β) (chains : ι → List α) (t : ChainedTable key hash) : Prop
    extends Holds m chains where
  contents : ∀ i, m.data (chains i) = (t.chain i).map some

variable {m : Memory ι α β} {chains : ι → List α} {t : ChainedTable key hash}

namespace Stores

theorem split (h : Stores m chains t) {i : ι} {a : α} {before rest : List α}
    (hi : chains i = before ++ a :: rest) {node : Node α β} (hnode : m.heap a = some node) :
    ∃ front back, t.chain i = front ++ node.data :: back ∧ m.data before = front.map some ∧
      m.data rest = back.map some ∧ (∀ b ∈ front, key b ≠ key node.data) ∧
      ∀ b ∈ back, key b ≠ key node.data := by
  have hcontents := h.contents i
  rw [hi, Memory.data_append, Memory.data_cons, hnode, Option.map_some,
    List.append_eq_map_iff] at hcontents
  obtain ⟨front, tail, hchain, hfront, htail⟩ := hcontents
  obtain ⟨b, back, rfl, hb, hback⟩ := List.map_eq_cons_iff.mp htail
  obtain rfl := Option.some.inj hb
  have hdistinct := t.distinct i
  rw [hchain, List.map_append, List.map_cons] at hdistinct
  obtain ⟨-, hbehind, hdisjoint⟩ := List.nodup_append'.mp hdistinct
  refine ⟨front, back, hchain, hfront.symm, hback.symm, ?_, ?_⟩
  · intro c hc hkey
    exact hdisjoint (List.mem_map_of_mem hc) (hkey ▸ List.mem_cons_self)
  · intro c hc hkey
    exact (List.nodup_cons.mp hbehind).1 (hkey ▸ List.mem_map_of_mem hc)

/-- A node of a list holds what the table finds under its key. -/
theorem entry (h : Stores m chains t) [DecidableEq κ] {i : ι} {a : α} (ha : a ∈ chains i)
    {node : Node α β} (hnode : m.heap a = some node) :
    hash (key node.data) = i ∧ t.entry (key node.data) = some node.data := by
  obtain ⟨before, rest, hi⟩ := List.append_of_mem ha
  obtain ⟨front, back, hchain, -⟩ := h.split hi hnode
  have hmem : node.data ∈ t.chain i := by
    rw [hchain]
    exact List.mem_append_right _ List.mem_cons_self
  exact ⟨t.placed i _ hmem, t.entry_of_mem hmem⟩

variable [DecidableEq κ]

theorem entry_eq_none (h : Stores m chains t) {k : κ}
    (hall : ∀ a ∈ chains (hash k), ∀ node, m.heap a = some node → key node.data ≠ k) :
    t.entry k = none := by
  refine ChainedTable.search_eq_none.mpr fun b hb hkey => ?_
  have hmem : some b ∈ m.data (chains (hash k)) := by
    rw [h.contents]
    exact List.mem_map_of_mem hb
  obtain ⟨a, ha, hdata⟩ := List.mem_map.mp hmem
  obtain ⟨node, hnode, rfl⟩ := Option.map_eq_some_iff.mp hdata
  exact hall a ha node hnode hkey

omit [DecidableEq κ] in
theorem free (h : Stores m chains t) [DecidableEq α] {a : α} (ha : ∀ i, a ∉ chains i) :
    Stores (m.free a) chains t where
  toHolds := h.toHolds.free ha
  contents i := by rw [m.data_free_of_not_mem (ha i), h.contents]

variable [DecidableEq α] [DecidableEq ι]

theorem unlink (h : Stores m chains t) {i : ι} {a : α} {before rest : List α}
    (hi : chains i = before ++ a :: rest) :
    ∃ node m', m.heap a = some node ∧ m.store (slotAfter i before) node.next = some m' ∧
      Stores m' (Function.update chains i (before ++ rest)) (t.unlink (key node.data)) := by
  obtain ⟨node, m', hnode, hstore, hholds⟩ := h.toHolds.unlink hi
  refine ⟨node, m', hnode, hstore, hholds, fun j => ?_⟩
  obtain ⟨hplace, -⟩ := h.entry (by rw [hi]; simp) hnode
  obtain ⟨front, back, hchain, hfront, hback, hneFront, -⟩ := h.split hi hnode
  have hdata : ∀ l, m'.data l = m.data l := fun l =>
    List.map_congr_left fun b _ => Memory.store_data hstore b
  rw [hdata, ChainedTable.chain_unlink, hplace]
  by_cases hj : j = i
  · subst hj
    rw [Function.update_self, Function.update_self, hchain,
      ChainedTable.unlinkChain_split rfl hneFront, Memory.data_append, hfront, hback,
      List.map_append]
  · rw [Function.update_of_ne hj, Function.update_of_ne hj, h.contents]

theorem write (h : Stores m chains t) {i : ι} {a : α} (ha : a ∈ chains i) {node : Node α β}
    (hnode : m.heap a = some node) (f : β → β) (hf : ∀ b, key (f b) = key b) :
    Stores (m.write a { node with data := f node.data }) chains
      (t.adjust (key node.data) f hf) where
  toHolds := h.toHolds.write_data hnode (f node.data)
  contents j := by
    obtain ⟨before, rest, hi⟩ := List.append_of_mem ha
    obtain ⟨hplace, -⟩ := h.entry ha hnode
    obtain ⟨front, back, hchain, hfront, hback, hneFront, hneBack⟩ := h.split hi hnode
    rw [ChainedTable.chain_adjust, hplace]
    by_cases hj : j = i
    · subst hj
      have hnodup := h.nodup j
      rw [hi] at hnodup
      obtain ⟨-, hbehind, hdisjoint⟩ := List.nodup_append'.mp hnodup
      have hbefore : a ∉ before := fun hmem => hdisjoint hmem List.mem_cons_self
      have hrest : a ∉ rest := (List.nodup_cons.mp hbehind).1
      rw [Function.update_self, hchain, ChainedTable.adjustChain_split f rfl hneFront hneBack, hi,
        Memory.data_append, Memory.data_cons, Memory.heap_write_self,
        m.data_write_of_not_mem hbefore, m.data_write_of_not_mem hrest, hfront, hback,
        List.map_append, List.map_cons]
      rfl
    · have hout : a ∉ chains j := fun hmem => hj (h.apart j i a hmem ha)
      rw [Function.update_of_ne hj, m.data_write_of_not_mem hout, h.contents]

theorem push (h : Stores m chains t) {a : α} (ha : m.heap a = none) {k : κ} {new : β}
    (hk : key new = k) (hnone : t.entry k = none) :
    Stores (m.push (hash k) a new) (Function.update chains (hash k) (a :: chains (hash k)))
      (t.insert k new hk hnone) where
  toHolds := h.toHolds.push ha (hash k) new
  contents j := by
    have hold : ∀ i, (m.push (hash k) a new).data (chains i) = m.data (chains i) := by
      refine fun i => m.data_write_of_not_mem (fun hmem => ?_) _
      obtain ⟨node, hnode⟩ := h.heap_of_mem hmem
      rw [ha] at hnode
      cases hnode
    rw [ChainedTable.chain_insert]
    by_cases hj : j = hash k
    · subst hj
      rw [Function.update_self, Function.update_self, Memory.data_cons, hold, h.contents,
        List.map_cons]
      congr 1
      exact congrArg (Option.map Node.data) (m.heap_write_self a _)
    · rw [Function.update_of_ne hj, Function.update_of_ne hj, hold, h.contents]

omit [DecidableEq α] in
/-- Taking out a key that the table does not hold leaves the chains as they are. -/
theorem unlink_of_none (h : Stores m chains t) {k : κ} (hnone : t.entry k = none) :
    Stores m chains (t.unlink k) where
  toHolds := h.toHolds
  contents j := by
    have hchain : (t.unlink k).chain = t.chain := by
      rw [ChainedTable.chain_unlink, ChainedTable.unlinkChain, List.eraseP_of_forall_not,
        Function.update_eq_self]
      simpa [ChainedTable.entry, ChainedTable.search] using hnone
    rw [hchain, h.contents]

end Stores

end ProxyTun.Library.LinkedTable
