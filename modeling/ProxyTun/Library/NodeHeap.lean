import Mathlib.Data.List.Nodup
import Mathlib.Logic.Function.Basic

/-!
# Linked lists in a heap

Nodes are allocated at addresses and hold the address of the next node. Several lists start at head
slots of their own. A loop over a list keeps the place that holds the address of its next node, the
head slot or a field of the node before it, so that it can unlink that node.
-/
namespace ProxyTun.Library.NodeHeap

variable {ι α β : Type*}

structure Node (α β : Type*) where
  data : β
  next : Option α
  deriving DecidableEq, Repr

/-- The head slots and the nodes that are allocated. -/
structure Memory (ι α β : Type*) where
  heads : ι → Option α
  heap : α → Option (Node α β)

/-- A place that holds the address of a node. -/
inductive Slot (ι α : Type*) where
  | head (i : ι)
  | next (a : α)
  deriving DecidableEq, Repr

namespace Memory

/-- The address that a place holds, if the place is there. -/
def load (m : Memory ι α β) : Slot ι α → Option (Option α)
  | .head i => some (m.heads i)
  | .next a => (m.heap a).map Node.next

/-- The data of the nodes at some addresses. -/
def data (m : Memory ι α β) (l : List α) : List (Option β) :=
  l.map fun a => (m.heap a).map Node.data

@[simp] theorem data_append (m : Memory ι α β) (l l' : List α) :
    m.data (l ++ l') = m.data l ++ m.data l' := List.map_append

@[simp] theorem data_cons (m : Memory ι α β) (a : α) (l : List α) :
    m.data (a :: l) = (m.heap a).map Node.data :: m.data l := rfl

variable [DecidableEq α]

def write (m : Memory ι α β) (a : α) (node : Node α β) : Memory ι α β :=
  { m with heap := Function.update m.heap a (some node) }

@[simp] theorem heap_write_self (m : Memory ι α β) (a : α) (node : Node α β) :
    (m.write a node).heap a = some node := Function.update_self ..

theorem heap_write_of_ne (m : Memory ι α β) {a b : α} (hb : b ≠ a) (node : Node α β) :
    (m.write a node).heap b = m.heap b := Function.update_of_ne hb ..

def free (m : Memory ι α β) (a : α) : Memory ι α β :=
  { m with heap := Function.update m.heap a none }

@[simp] theorem heap_free_self (m : Memory ι α β) (a : α) : (m.free a).heap a = none :=
  Function.update_self ..

theorem heap_free_of_ne (m : Memory ι α β) {a b : α} (hb : b ≠ a) :
    (m.free a).heap b = m.heap b := Function.update_of_ne hb ..

theorem data_write_of_not_mem (m : Memory ι α β) {a : α} {l : List α} (ha : a ∉ l)
    (node : Node α β) : (m.write a node).data l = m.data l := by
  refine List.map_congr_left fun b hb => ?_
  rw [m.heap_write_of_ne (ne_of_mem_of_not_mem hb ha)]

theorem data_free_of_not_mem (m : Memory ι α β) {a : α} {l : List α} (ha : a ∉ l) :
    (m.free a).data l = m.data l := by
  refine List.map_congr_left fun b hb => ?_
  rw [m.heap_free_of_ne (ne_of_mem_of_not_mem hb ha)]

variable [DecidableEq ι]

/-- An address is stored in a place, if the place is there. -/
def store (m : Memory ι α β) (slot : Slot ι α) (p : Option α) : Option (Memory ι α β) :=
  match slot with
  | .head i => some { m with heads := Function.update m.heads i p }
  | .next a => (m.heap a).map fun node => m.write a { node with next := p }

theorem store_data {m m' : Memory ι α β} {slot : Slot ι α} {p : Option α}
    (h : m.store slot p = some m') (b : α) :
    (m'.heap b).map Node.data = (m.heap b).map Node.data := by
  cases slot with
  | head i =>
    obtain rfl := Option.some.inj h
    rfl
  | next a =>
    obtain ⟨node, hnode, rfl⟩ := Option.map_eq_some_iff.mp h
    by_cases hb : b = a
    · subst hb
      rw [heap_write_self, hnode]
      rfl
    · rw [m.heap_write_of_ne hb]

def push (m : Memory ι α β) (i : ι) (a : α) (data : β) : Memory ι α β :=
  { m.write a ⟨data, m.heads i⟩ with heads := Function.update m.heads i (some a) }

theorem heap_push_of_ne (m : Memory ι α β) (i : ι) {a b : α} (data : β) (hb : b ≠ a) :
    (m.push i a data).heap b = m.heap b := m.heap_write_of_ne hb _

end Memory

def Path (heap : α → Option (Node α β)) : Option α → List α → Option α → Prop
  | p, [], q => p = q
  | p, a :: l, q => p = some a ∧ ∃ node, heap a = some node ∧ Path heap node.next l q

section Path
variable {heap heap' : α → Option (Node α β)} {p q : Option α} {l l' : List α}

theorem path_append :
    Path heap p (l ++ l') q ↔ ∃ r, Path heap p l r ∧ Path heap r l' q := by
  induction l generalizing p with
  | nil => simp [Path]
  | cons a l ih =>
    simp only [List.cons_append, Path, ih]
    constructor
    · rintro ⟨hp, node, hnode, r, hl, hl'⟩
      exact ⟨r, ⟨hp, node, hnode, hl⟩, hl'⟩
    · rintro ⟨r, ⟨hp, node, hnode, hl⟩, hl'⟩
      exact ⟨hp, node, hnode, r, hl, hl'⟩

theorem Path.congr (h : Path heap p l q) (hheap : ∀ a ∈ l, (heap' a).map Node.next =
    (heap a).map Node.next) : Path heap' p l q := by
  induction l generalizing p with
  | nil => exact h
  | cons a l ih =>
    obtain ⟨hp, node, hnode, hrest⟩ := h
    have hnext := hheap a List.mem_cons_self
    rw [hnode, Option.map_some, Option.map_eq_some_iff] at hnext
    obtain ⟨node', hnode', hsame⟩ := hnext
    refine ⟨hp, node', hnode', ?_⟩
    rw [hsame]
    exact ih hrest fun b hb => hheap b (List.mem_cons_of_mem a hb)

theorem Path.heap_of_mem (h : Path heap p l q) {a : α} (ha : a ∈ l) :
    ∃ node, heap a = some node := by
  obtain ⟨front, back, rfl⟩ := List.append_of_mem ha
  obtain ⟨-, -, -, node, hnode, -⟩ := path_append.mp h
  exact ⟨node, hnode⟩

theorem Path.unique (h : Path heap p l none) (h' : Path heap p l' none) : l = l' := by
  induction l generalizing p l' with
  | nil =>
    obtain rfl : p = none := h
    cases l' with
    | nil => rfl
    | cons a l' => cases h'.1
  | cons a l ih =>
    obtain ⟨rfl, node, hnode, hrest⟩ := h
    cases l' with
    | nil => cases h'
    | cons b l' =>
      obtain ⟨hb, node', hnode', hrest'⟩ := h'
      obtain rfl := Option.some.inj hb
      obtain rfl := Option.some.inj (hnode.symm.trans hnode')
      rw [ih hrest hrest']

/-- A list that ends meets no node twice. -/
theorem Path.nodup (h : Path heap p l none) : l.Nodup := by
  induction l generalizing p with
  | nil => exact List.nodup_nil
  | cons a l ih =>
    have hall := h
    obtain ⟨rfl, node, hnode, hrest⟩ := h
    refine List.nodup_cons.mpr ⟨?_, ih hrest⟩
    intro hmem
    obtain ⟨front, back, rfl⟩ := List.append_of_mem hmem
    obtain ⟨r, -, hback⟩ := path_append.mp hrest
    obtain rfl := hback.1
    have hsame := congrArg List.length (hall.unique hback)
    simp only [List.length_cons, List.length_append] at hsame
    omega

section Memory
variable [DecidableEq α] {m : Memory ι α β} {a : α}

theorem Path.write (h : Path m.heap p l q) (ha : a ∉ l) (node : Node α β) :
    Path (m.write a node).heap p l q := by
  refine h.congr fun b hb => ?_
  rw [m.heap_write_of_ne (ne_of_mem_of_not_mem hb ha)]

theorem Path.free (h : Path m.heap p l q) (ha : a ∉ l) : Path (m.free a).heap p l q := by
  refine h.congr fun b hb => ?_
  rw [m.heap_free_of_ne (ne_of_mem_of_not_mem hb ha)]

/-- The last node on a way may lead elsewhere. -/
theorem Path.relink (h : Path m.heap p (l ++ [a]) q) (ha : a ∉ l) (node : Node α β) :
    Path (m.write a node).heap p (l ++ [a]) node.next := by
  obtain ⟨r, hl, rfl, -⟩ := path_append.mp h
  exact path_append.mpr ⟨some a, hl.write ha node, rfl, node, m.heap_write_self a node, rfl⟩

end Memory

end Path

/-- Each head slot leads through its list, and no node is in two lists. -/
structure Holds (m : Memory ι α β) (chains : ι → List α) : Prop where
  path : ∀ i, Path m.heap (m.heads i) (chains i) none
  apart : ∀ i j a, a ∈ chains i → a ∈ chains j → i = j

def slotAfter (i : ι) (before : List α) : Slot ι α :=
  before.getLast?.elim (.head i) .next

@[simp] theorem slotAfter_nil (i : ι) : slotAfter i ([] : List α) = .head i := rfl

@[simp] theorem slotAfter_concat (i : ι) (before : List α) (a : α) :
    slotAfter i (before ++ [a]) = .next a := by
  rw [slotAfter, List.getLast?_concat]
  rfl

/-- The place is the head slot or a field of a node of the list. -/
def Slot.In (slot : Slot ι α) (i : ι) (l : List α) : Prop :=
  slot = .head i ∨ ∃ a ∈ l, slot = .next a

theorem Slot.In.exists_split {slot : Slot ι α} {i : ι} {l : List α} (h : slot.In i l) :
    ∃ before rest, l = before ++ rest ∧ slot = slotAfter i before := by
  rcases h with rfl | ⟨a, ha, rfl⟩
  · exact ⟨[], l, rfl, rfl⟩
  · obtain ⟨front, rest, rfl⟩ := List.append_of_mem ha
    exact ⟨front ++ [a], rest, by simp, (slotAfter_concat i front a).symm⟩

theorem Slot.In.mono {slot : Slot ι α} {i : ι} {l l' : List α} (h : slot.In i l) (hl : l ⊆ l') :
    slot.In i l' := by
  rcases h with rfl | ⟨a, ha, rfl⟩
  · exact Or.inl rfl
  · exact Or.inr ⟨a, hl ha, rfl⟩

/-- A place outside a node stays in the list when that node leaves it. -/
theorem Slot.In.cut {slot : Slot ι α} {i : ι} {a : α} {before rest : List α}
    (h : slot.In i (before ++ a :: rest)) (hne : slot ≠ .next a) :
    slot.In i (before ++ rest) := by
  rcases h with rfl | ⟨b, hb, rfl⟩
  · exact Or.inl rfl
  · refine Or.inr ⟨b, ?_, rfl⟩
    have hba : b ≠ a := fun heq => hne (congrArg Slot.next heq)
    simpa [hba] using hb

theorem slotAfter_in (i : ι) (before rest : List α) :
    (slotAfter i before).In i (before ++ rest) := by
  rcases List.eq_nil_or_concat before with rfl | ⟨front, a, rfl⟩
  · exact Or.inl rfl
  · rw [List.concat_eq_append, slotAfter_concat]
    exact Or.inr ⟨a, by simp, rfl⟩

theorem mem_of_mem_cut [DecidableEq ι] {chains : ι → List α} {i j : ι} {a b : α}
    {before rest : List α} (hi : chains i = before ++ a :: rest)
    (hb : b ∈ Function.update chains i (before ++ rest) j) : b ∈ chains j := by
  by_cases hj : j = i
  · subst hj
    rw [Function.update_self] at hb
    rw [hi]
    exact ((List.sublist_cons_self a rest).append_left before).subset hb
  · rwa [Function.update_of_ne hj] at hb

theorem subset_pushed [DecidableEq ι] (chains : ι → List α) (i j : ι) (a : α) :
    chains j ⊆ Function.update chains i (a :: chains i) j := by
  intro b hb
  by_cases hj : j = i
  · subst hj
    rw [Function.update_self]
    exact List.mem_cons_of_mem a hb
  · rwa [Function.update_of_ne hj]

theorem eq_or_mem_of_mem_pushed [DecidableEq ι] {chains : ι → List α} {i j : ι} {a b : α}
    (hb : b ∈ Function.update chains i (a :: chains i) j) : b = a ∧ j = i ∨ b ∈ chains j := by
  by_cases hj : j = i
  · subst hj
    rw [Function.update_self, List.mem_cons] at hb
    exact hb.imp_left fun heq => ⟨heq, rfl⟩
  · rw [Function.update_of_ne hj] at hb
    exact Or.inr hb

namespace Holds

variable {m : Memory ι α β} {chains : ι → List α} (h : Holds m chains) {i : ι} {a : α}
include h

theorem nodup (i : ι) : (chains i).Nodup := (h.path i).nodup

theorem heap_of_mem (ha : a ∈ chains i) : ∃ node, m.heap a = some node :=
  (h.path i).heap_of_mem ha

/-- A place of a list holds the address of the node behind it. -/
theorem load_slotAfter {before rest : List α} (hi : chains i = before ++ rest) :
    m.load (slotAfter i before) = some rest.head? := by
  have hpath := h.path i
  rw [hi] at hpath
  obtain ⟨r, hbefore, hrest⟩ := path_append.mp hpath
  have hr : r = rest.head? := by
    cases rest with
    | nil => exact hrest
    | cons b rest => exact hrest.1
  rw [← hr]
  rcases List.eq_nil_or_concat before with rfl | ⟨front, b, rfl⟩
  · exact congrArg some hbefore
  · rw [List.concat_eq_append] at hbefore ⊢
    obtain ⟨-, -, -, node, hnode, hnext⟩ := path_append.mp hbefore
    rw [slotAfter_concat, Memory.load, hnode, Option.map_some]
    exact congrArg some hnext

theorem next_eq {before rest : List α} (hi : chains i = before ++ a :: rest) {node : Node α β}
    (hnode : m.heap a = some node) : node.next = rest.head? := by
  have hload := h.load_slotAfter (show chains i = (before ++ [a]) ++ rest by simp [hi])
  rw [slotAfter_concat, Memory.load, hnode, Option.map_some] at hload
  exact Option.some.inj hload

/-- The node behind a place of a list, and the list as split there. -/
theorem load_in {slot : Slot ι α} (hslot : slot.In i (chains i)) :
    ∃ before rest, chains i = before ++ rest ∧ slot = slotAfter i before ∧
      m.load slot = some rest.head? := by
  obtain ⟨before, rest, hi, rfl⟩ := hslot.exists_split
  exact ⟨before, rest, hi, rfl, h.load_slotAfter hi⟩

variable [DecidableEq α]

/-- A node that is in no list is none of a list's business. -/
theorem free (ha : ∀ i, a ∉ chains i) : Holds (m.free a) chains :=
  ⟨fun i => (h.path i).free (ha i), h.apart⟩

theorem write_data {node : Node α β} (ha : m.heap a = some node) (data : β) :
    Holds (m.write a { node with data := data }) chains := by
  refine ⟨fun i => (h.path i).congr fun b _ => ?_, h.apart⟩
  by_cases hb : b = a
  · subst hb
    rw [Memory.heap_write_self, ha]
    rfl
  · rw [m.heap_write_of_ne hb]

variable [DecidableEq ι]

omit [DecidableEq α] in
theorem not_mem_cut {before rest : List α} (hi : chains i = before ++ a :: rest) (j : ι) :
    a ∉ Function.update chains i (before ++ rest) j := by
  intro ha
  have hmem : a ∈ chains i := by
    rw [hi]
    exact List.mem_append_right _ List.mem_cons_self
  obtain rfl : j = i := h.apart j i a (mem_of_mem_cut hi ha) hmem
  have hnodup := h.nodup j
  rw [hi] at hnodup
  rw [Function.update_self, List.mem_append] at ha
  obtain ⟨-, hbehind, hdisjoint⟩ := List.nodup_append'.mp hnodup
  rcases ha with ha | ha
  · exact hdisjoint ha List.mem_cons_self
  · exact (List.nodup_cons.mp hbehind).1 ha

/-- A node is unlinked by storing the address behind it in the place that holds its own. -/
theorem unlink {before rest : List α} (hi : chains i = before ++ a :: rest) :
    ∃ node m', m.heap a = some node ∧ m.store (slotAfter i before) node.next = some m' ∧
      Holds m' (Function.update chains i (before ++ rest)) := by
  have hpath := h.path i
  rw [hi] at hpath
  obtain ⟨r, hbefore, rfl, node, hnode, hrest⟩ := path_append.mp hpath
  have hapart : ∀ j k b, b ∈ Function.update chains i (before ++ rest) j →
      b ∈ Function.update chains i (before ++ rest) k → j = k := by
    intro j k b hj hk
    exact h.apart j k b (mem_of_mem_cut hi hj) (mem_of_mem_cut hi hk)
  rcases List.eq_nil_or_concat before with rfl | ⟨front, b, rfl⟩
  · refine ⟨node, _, hnode, rfl, ?_, hapart⟩
    intro j
    by_cases hj : j = i
    · subst hj
      simp only [Function.update_self]
      exact hrest
    · simp only [Function.update_of_ne hj]
      exact h.path j
  · rw [List.concat_eq_append] at hbefore hi hapart ⊢
    obtain ⟨nodeb, hnodeb⟩ := hbefore.heap_of_mem List.mem_concat_self
    have hnodup := h.nodup i
    rw [hi, List.append_assoc, List.singleton_append] at hnodup
    obtain ⟨-, hbehind, hdisjoint⟩ := List.nodup_append'.mp hnodup
    have hfront : b ∉ front := fun hb => hdisjoint hb List.mem_cons_self
    have hback : b ∉ rest := fun hb =>
      (List.nodup_cons.mp hbehind).1 (List.mem_cons_of_mem a hb)
    refine ⟨node, m.write b { nodeb with next := node.next }, hnode, ?_, ?_, hapart⟩
    · rw [slotAfter_concat, Memory.store, hnodeb, Option.map_some]
    intro j
    by_cases hj : j = i
    · subst hj
      rw [Function.update_self]
      exact path_append.mpr ⟨node.next, hbefore.relink hfront _, hrest.write hback _⟩
    · have hout : b ∉ chains j := fun hb => hj (h.apart j i b hb (by rw [hi]; simp))
      rw [Function.update_of_ne hj]
      exact (h.path j).write hout _

/-- A node at a free address goes to the front of a list. -/
theorem push (ha : m.heap a = none) (i : ι) (data : β) :
    Holds (m.push i a data) (Function.update chains i (a :: chains i)) := by
  have hnew : ∀ j, a ∉ chains j := by
    intro j hj
    obtain ⟨node, hnode⟩ := h.heap_of_mem hj
    rw [ha] at hnode
    cases hnode
  have hold : ∀ j, Path (m.push i a data).heap (m.heads j) (chains j) none :=
    fun j => (h.path j).write (hnew j) _
  constructor
  · intro j
    by_cases hj : j = i
    · subst hj
      rw [Function.update_self]
      exact ⟨Function.update_self .., _, m.heap_write_self a _, hold j⟩
    · rw [Function.update_of_ne hj]
      have hhead : (m.push i a data).heads j = m.heads j := Function.update_of_ne hj ..
      rw [hhead]
      exact hold j
  · intro j k b hj hk
    rcases eq_or_mem_of_mem_pushed hj with ⟨rfl, rfl⟩ | hj
    · rcases eq_or_mem_of_mem_pushed hk with ⟨-, rfl⟩ | hk
      · rfl
      · exact absurd hk (hnew k)
    · rcases eq_or_mem_of_mem_pushed hk with ⟨heq, -⟩ | hk
      · exact absurd (heq ▸ hj) (hnew j)
      · exact h.apart j k b hj hk

end Holds

end ProxyTun.Library.NodeHeap
